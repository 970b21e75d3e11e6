import Mathlib.Data.List.Infix
import RdfIndex.Term.Parser

/-!
# Where tokens end

A token ends at white space, at a closing `>>` or with the text, an IRI at its bracket and a label
at its quote.  For each of them there is what it is read off when it is written with something after
it (`token_append`, `iriBody_append`, `labelBody_append`), and what is known of it when it was read
(`isToken_token`, `iriBody_ok`).

What follows a printed term is white space or nothing, which `Ends` says.
-/

namespace RdfIndex

/-- What may stand for a blank node or a language: not empty, without white space, and without the
`>>` that closes a quoted triple. -/
structure IsToken (cs : List Char) : Prop where
  ne_nil : cs ≠ []
  not_blank : ∀ c ∈ cs, isBlank c = false
  not_close : ¬ ['>', '>'] <:+: cs

instance (cs : List Char) : Decidable (IsToken cs) :=
  decidable_of_iff (cs ≠ [] ∧ cs.all (!isBlank ·) = true ∧ ¬ ['>', '>'] <:+: cs)
    ⟨fun ⟨hne, hblank, hclose⟩ => ⟨hne, by simpa using hblank, hclose⟩,
      fun ⟨hne, hblank, hclose⟩ => ⟨hne, by simpa using hblank, hclose⟩⟩

namespace Parser

/-- A text that ends what stands in front of it: it is empty or starts with white space. -/
def Ends (rest : List Char) : Prop := ∀ c ∈ rest.head?, isBlank c = true

theorem ends_nil : Ends [] := by simp [Ends]

theorem ends_cons {c : Char} (h : isBlank c = true) (rest : List Char) : Ends (c :: rest) := by
  simpa [Ends] using h

theorem ends_append {ws : List Char} (hne : ws ≠ []) (h : ∀ c ∈ ws, isBlank c = true)
    (rest : List Char) : Ends (ws ++ rest) := by
  cases ws with
  | nil => exact absurd rfl hne
  | cons c ws => exact ends_cons (h c List.mem_cons_self) (ws ++ rest)

theorem ends_of_blank {ws : List Char} (h : ∀ c ∈ ws, isBlank c = true) : Ends ws :=
  fun c hc => h c (List.mem_of_mem_head? hc)

/-- No text that ends another one starts with a character that is not blank. -/
theorem Ends.ne_cons {rest : List Char} (h : Ends rest) {c : Char} (hc : isBlank c = false)
    (cs : List Char) : rest ≠ c :: cs := by
  rintro rfl
  exact absurd (h c rfl) (Bool.eq_false_iff.1 hc)

/-! ## White space -/

theorem skipBlanks_append {ws : List Char} (h : ∀ c ∈ ws, isBlank c = true) (cs : List Char) :
    skipBlanks (ws ++ cs) = skipBlanks cs :=
  List.dropWhile_append_of_pos h

theorem skipBlanks_of_blank {ws : List Char} (h : ∀ c ∈ ws, isBlank c = true) :
    skipBlanks ws = [] := by
  rw [← List.append_nil ws]
  exact skipBlanks_append h []

theorem skipBlanks_cons {c : Char} (h : isBlank c = false) (cs : List Char) :
    skipBlanks (c :: cs) = c :: cs :=
  List.dropWhile_cons_of_neg (by simp [h])

/-! ## Tokens -/

theorem infix_cons_iff {c : Char} {cs : List Char} :
    ['>', '>'] <:+: c :: cs ↔ (c = '>' ∧ cs.head? = some '>') ∨ ['>', '>'] <:+: cs := by
  rw [List.infix_cons_iff, List.cons_prefix_cons]
  cases cs with
  | nil => simp
  | cons d ds => simp [List.cons_prefix_cons, eq_comm]

theorem token_of_ends {rest : List Char} (h : Ends rest) : token rest = ([], rest) := by
  rw [token.eq_def]
  split
  · rfl
  · rfl
  · next c cs _ => rw [if_pos (h c rfl)]

theorem token_cons {c : Char} {cs : List Char} (hc : isBlank c = false)
    (hclose : ¬ (c = '>' ∧ cs.head? = some '>')) :
    token (c :: cs) = (c :: (token cs).1, (token cs).2) := by
  rw [token.eq_def]
  split
  · next heq => cases heq
  · next heq =>
    cases heq
    exact absurd ⟨rfl, rfl⟩ hclose
  · next heq =>
    cases heq
    rw [if_neg (by simp [hc])]

/-- A token is read off a text that goes on with white space or not at all. -/
theorem token_append {rest : List Char} (hrest : Ends rest) : ∀ {cs : List Char},
    (∀ c ∈ cs, isBlank c = false) → ¬ ['>', '>'] <:+: cs → token (cs ++ rest) = (cs, rest)
  | [], _, _ => token_of_ends hrest
  | c :: cs, hblank, hclose => by
    rw [infix_cons_iff, not_or] at hclose
    have ih := token_append hrest (fun d hd => hblank d (List.mem_cons_of_mem c hd)) hclose.2
    have hhead : ¬ (c = '>' ∧ (cs ++ rest).head? = some '>') := by
      cases cs with
      | nil =>
        rintro ⟨-, hhead⟩
        exact absurd (hrest '>' hhead) (by decide)
      | cons d ds => exact hclose.1
    rw [List.cons_append, token_cons (hblank c List.mem_cons_self) hhead, ih]

theorem token_of_isToken {cs rest : List Char} (h : IsToken cs) (hrest : Ends rest) :
    token (cs ++ rest) = (cs, rest) :=
  token_append hrest h.not_blank h.not_close

/-- A token and what is left make the text. -/
theorem append_token (cs : List Char) : (token cs).1 ++ (token cs).2 = cs := by
  fun_induction token cs with
  | case1 => rfl
  | case2 => rfl
  | case3 => rfl
  | case4 c cs _ _ t rest ht ih =>
    rw [ht] at ih
    exact congrArg (c :: ·) ih

/-- A token that is read has no white space in it and nothing that closes a quoted triple. -/
theorem isToken_token {cs : List Char} (h : (token cs).1 ≠ []) : IsToken (token cs).1 := by
  have hall : (∀ c ∈ (token cs).1, isBlank c = false) ∧ ¬ ['>', '>'] <:+: (token cs).1 := by
    clear h
    fun_induction token cs with
    | case1 => simp
    | case2 => simp
    | case3 => simp
    | case4 c cs hopen hc t rest ht ih =>
      have happend := append_token cs
      simp only [ht] at ih happend ⊢
      refine ⟨List.forall_mem_cons.2 ⟨by simpa using hc, ih.1⟩, ?_⟩
      rw [infix_cons_iff, not_or]
      refine ⟨?_, ih.2⟩
      rintro ⟨rfl, hhead⟩
      -- The text starts with what closes a quoted triple, and no token is read off it.
      obtain ⟨ds, rfl⟩ := List.head?_eq_some_iff.1 hhead
      exact hopen (ds ++ rest) rfl happend.symm
  exact ⟨h, hall.1, hall.2⟩

/-! ## IRIs -/

theorem iriBody_append {iri : List Char} (h : '>' ∉ iri) (rest : List Char) :
    iriBody (iri ++ '>' :: rest) = .ok (iri, rest) := by
  have hall : ∀ c ∈ iri, (c != '>') = true := fun c hc => by
    simpa using fun heq : c = '>' => h (heq ▸ hc)
  have hdrop : (iri ++ '>' :: rest).dropWhile (· != '>') = '>' :: rest := by
    rw [List.dropWhile_append_of_pos hall, List.dropWhile_cons_of_neg (by simp)]
  have htake : (iri ++ '>' :: rest).takeWhile (· != '>') = iri := by
    rw [List.takeWhile_append_of_pos hall, List.takeWhile_cons_of_neg (by simp), List.append_nil]
  rw [iriBody, hdrop, htake]

/-- An IRI that is read has no bracket in it, and starts as the text does. -/
theorem iriBody_ok {cs iri rest : List Char} (h : iriBody cs = .ok (iri, rest)) :
    '>' ∉ iri ∧ iri <+: cs := by
  rw [iriBody] at h
  split at h
  · obtain ⟨rfl, -⟩ := Prod.mk.inj (Except.ok.inj h)
    refine ⟨fun hmem => ?_, List.takeWhile_prefix _⟩
    simpa using List.all_eq_true.1 List.all_takeWhile '>' hmem
  · cases h

/-! ## Labels -/

/-- A character that is neither a quote nor a backslash stands for itself. -/
theorem labelStep_plain {c : Char} (hquote : c ≠ '"') (hescape : c ≠ '\\') (rest : List Char) :
    labelStep (c :: rest) = .char c rest := by
  rw [labelStep.eq_def]
  split
  · next heq => cases heq
  · next heq => exact absurd (List.cons.inj heq).1 hquote
  · next heq => exact absurd (List.cons.inj heq).1 hescape
  · next heq => exact absurd (List.cons.inj heq).1 hescape
  · next heq =>
    obtain ⟨rfl, rfl⟩ := List.cons.inj heq
    rfl

/-- Each character of a label is read off its escaped form. -/
theorem labelStep_escapeChar (c : Char) (rest : List Char) :
    labelStep (escapeChar c ++ rest) = .char c rest := by
  unfold escapeChar
  split
  · rfl
  · rfl
  · rfl
  · rfl
  · rfl
  · next hquote hescape _ _ _ => exact labelStep_plain hquote hescape rest

theorem labelBody_of_close {cs rest : List Char} (h : labelStep cs = .close rest)
    (done : List Char) : labelBody done cs = .ok (done.reverse, rest) := by
  rw [labelBody.eq_def]
  split <;> next hstep => rw [h] at hstep; cases hstep <;> rfl

theorem labelBody_of_char {cs rest : List Char} {c : Char} (h : labelStep cs = .char c rest)
    (done : List Char) : labelBody done cs = labelBody (c :: done) rest := by
  rw [labelBody.eq_def]
  split <;> next hstep => rw [h] at hstep; cases hstep <;> rfl

/-- A label is read off its escaped form and the closing quote. -/
theorem labelBody_append (label rest : List Char) : ∀ done : List Char,
    labelBody done (label.flatMap escapeChar ++ '"' :: rest)
      = .ok (done.reverse ++ label, rest) := by
  induction label with
  | nil =>
    intro done
    rw [List.flatMap_nil, List.nil_append, List.append_nil]
    exact labelBody_of_close rfl done
  | cons c label ih =>
    intro done
    rw [List.flatMap_cons, List.append_assoc, labelBody_of_char (labelStep_escapeChar c _), ih,
      List.reverse_cons, List.append_assoc, List.singleton_append]

/-- A quoted label is read with what follows it. -/
theorem literal_append (label : String) (rest : List Char) :
    literal (label.toList.flatMap escapeChar ++ '"' :: rest) = literalTail label rest := by
  rw [literal, labelBody_append, List.reverse_nil, List.nil_append]
  simp only [String.ofList_toList]

end Parser

end RdfIndex
