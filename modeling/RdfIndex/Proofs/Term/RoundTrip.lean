import RdfIndex.Proofs.Results
import RdfIndex.Proofs.Term.Tokens

/-!
# Printed terms and statements read back

A printed term is read as the term if each of its IRIs, blank nodes and languages can be told from
what follows it (`Term.IsPrintable`), and every term that was read is such a term
(`isPrintable_of_readTerm`).  So what a text is read as can be printed and read again, though the
text itself may have had bare numbers, escapes and white space that are not printed.

The reader is first stated without the bounds on lengths that its recursion carries: a term is its
members after `<<` and a simple term otherwise (`readTerm_of_open`, `readTerm_of_not_open`).
-/

namespace RdfIndex

/-- An IRI that ends at its bracket and does not look like the start of a quoted triple. -/
structure IsPrintableIri (iri : String) : Prop where
  not_bracket : '>' ∉ iri.toList
  not_open : iri.toList.head? ≠ some '<'

instance (iri : String) : Decidable (IsPrintableIri iri) :=
  decidable_of_iff ('>' ∉ iri.toList ∧ iri.toList.head? ≠ some '<')
    ⟨fun ⟨h1, h2⟩ => ⟨h1, h2⟩, fun ⟨h1, h2⟩ => ⟨h1, h2⟩⟩

/-- A literal whose datatype ends at its bracket, or whose language is a token. -/
def Literal.IsPrintable : Literal → Prop
  | .typed _ datatype => '>' ∉ datatype.toList
  | .tagged _ language _ => IsToken language.toList

instance : DecidablePred Literal.IsPrintable
  | .typed _ datatype => inferInstanceAs (Decidable ('>' ∉ datatype.toList))
  | .tagged _ language _ => inferInstanceAs (Decidable (IsToken language.toList))

/-- A term each of whose parts can be told from what follows it.  Labels of literals may be any
text. -/
def Term.IsPrintable : Term → Prop
  | .iri text => IsPrintableIri text
  | .blank label => IsToken label.toList
  | .literal l => l.IsPrintable
  | .triple s p o => s.IsPrintable ∧ IsPrintableIri p ∧ o.IsPrintable

instance Term.decidableIsPrintable : DecidablePred Term.IsPrintable
  | .iri text => inferInstanceAs (Decidable (IsPrintableIri text))
  | .blank label => inferInstanceAs (Decidable (IsToken label.toList))
  | .literal l => inferInstanceAs (Decidable l.IsPrintable)
  | .triple s p o =>
    have := decidableIsPrintable s
    have := decidableIsPrintable o
    inferInstanceAs (Decidable (s.IsPrintable ∧ IsPrintableIri p ∧ o.IsPrintable))

/-- A statement of terms that can be told from what follows them. -/
structure Quad.IsPrintable (q : Quad) : Prop where
  subject : q.subject.IsPrintable
  predicate : q.predicate.IsPrintable
  object : q.object.IsPrintable
  context : ∀ c ∈ q.context, c.IsPrintable

namespace Parser

/-! ## The reader without its bounds -/

/-- The members of a quoted triple and its end, after the opening `<<`. -/
def readMembers (inner : List Char) : Except ParseFault (Term × List Char) := do
  let (s, r1) ← readTerm inner
  let (p, r2) ← readTerm r1
  let (o, r3) ← readTerm r2
  let r4 ← close? r3
  match p with
  | .iri p => .ok (.triple s p o, r4)
  | _ => .error ⟨.triplePredicate, r4⟩

theorem readTerm_of_error {cs : List Char} {e : ParseFault} (h : term cs = .error e) :
    readTerm cs = .error e := by
  rw [readTerm, h]
  rfl

theorem readTerm_of_ok {cs : List Char} {t : Term} {rest : Shorter cs}
    (h : term cs = .ok (t, rest)) : readTerm cs = .ok (t, rest.val) := by
  rw [readTerm, h]
  rfl

/-- A quoted triple is read as its members. -/
theorem readTerm_of_open {cs inner : List Char} (h : skipBlanks cs = '<' :: '<' :: inner) :
    readTerm cs = readMembers inner := by
  rw [readTerm, term]
  split
  · next hcs =>
    rw [h] at hcs
    cases hcs
    rw [readMembers]
    split
    · next hs =>
      rw [readTerm_of_error hs]
      rfl
    · next hs =>
      rw [readTerm_of_ok hs]
      split
      · next hp =>
        simp only [bind, Except.bind, readTerm_of_error hp]
        rfl
      · next p _ _ hp =>
        simp only [bind, Except.bind, readTerm_of_ok hp]
        split
        · next ho =>
          simp only [readTerm_of_error ho]
          rfl
        · next ho =>
          simp only [readTerm_of_ok ho]
          split
          · next hc =>
            simp only [hc]
            rfl
          · next hc =>
            simp only [hc]
            cases p <;> rfl
  · next hno => exact absurd h (hno inner)

/-- Any other term is read as a simple one. -/
theorem readTerm_of_not_open {cs : List Char} (h : ∀ inner, skipBlanks cs ≠ '<' :: '<' :: inner) :
    readTerm cs = simpleTerm (skipBlanks cs) := by
  rw [readTerm, term]
  split
  · next hcs => exact absurd hcs (h _)
  · split
    · next hs => exact hs.symm
    · next hs => exact hs.symm

/-! ## Printed terms are read -/

/-- What is printed after the closing quote of a literal. -/
def suffix : Literal → List Char
  | .typed _ datatype =>
    if datatype = Xsd.string then [] else '^' :: '^' :: bracketIri datatype.toList
  | .tagged _ language _ => '@' :: language.toList

theorem toChars_literal (l : Literal) :
    l.toChars = '"' :: l.label.toList.flatMap escapeChar ++ '"' :: suffix l := by
  cases l with
  | typed label datatype =>
    rw [Literal.toChars, quoteLabel, suffix, List.append_assoc, List.singleton_append]
    rfl
  | tagged label language hne =>
    rw [Literal.toChars, quoteLabel, suffix, List.append_assoc, List.singleton_append]
    rfl

/-- A plain string is followed by nothing, so that it must not be followed by what starts a language
or a datatype. -/
theorem literalTail_of_ends {rest : List Char} (h : Ends rest) (label : String) :
    literalTail label rest = .ok (.string label, rest) := by
  rw [literalTail.eq_def]
  split
  · exact absurd rfl (h.ne_cons (by decide) _)
  · exact absurd rfl (h.ne_cons (by decide) _)
  · exact absurd rfl (h.ne_cons (by decide) _)
  · rfl

theorem literalTail_suffix {l : Literal} {rest : List Char} (h : l.IsPrintable)
    (hrest : Ends rest) : literalTail l.label (suffix l ++ rest) = .ok (l, rest) := by
  cases l with
  | typed label datatype =>
    rw [suffix]
    split
    · next hstring =>
      subst hstring
      exact literalTail_of_ends hrest label
    · have hbody := iriBody_append h rest
      show (iriBody (datatype.toList ++ ['>'] ++ rest)).map _ = _
      rw [List.append_assoc, List.singleton_append, hbody]
      simp only [Except.map, String.ofList_toList, Literal.label]
  | tagged label language hne =>
    have htoken : token (language.toList ++ rest) = (language.toList, rest) :=
      token_of_isToken h hrest
    show literalTail label ('@' :: (language.toList ++ rest)) = _
    rw [literalTail, htoken, if_neg h.ne_nil, String.ofList_toList, Literal.lang, dif_neg hne]

theorem simpleTerm_literal {l : Literal} {rest : List Char} (h : l.IsPrintable)
    (hrest : Ends rest) : simpleTerm (l.toChars ++ rest) = .ok (.literal l, rest) := by
  rw [toChars_literal, List.append_assoc, List.cons_append, List.cons_append]
  show (literal _).map _ = _
  rw [literal_append, literalTail_suffix h hrest]
  rfl

theorem simpleTerm_iri {iri : String} {rest : List Char} (h : IsPrintableIri iri) :
    simpleTerm (bracketIri iri.toList ++ rest) = .ok (.iri iri, rest) := by
  show (iriBody (iri.toList ++ ['>'] ++ rest)).map _ = _
  rw [List.append_assoc, List.singleton_append, iriBody_append h.not_bracket]
  simp only [Except.map, String.ofList_toList]

theorem simpleTerm_blank {label : String} {rest : List Char} (h : IsToken label.toList)
    (hrest : Ends rest) :
    simpleTerm ('_' :: ':' :: label.toList ++ rest) = .ok (.blank label, rest) := by
  have htoken := token_of_isToken h hrest
  show simpleTerm ('_' :: ':' :: (label.toList ++ rest)) = _
  rw [simpleTerm, htoken, if_neg h.ne_nil, String.ofList_toList]

/-- A term that does not start a quoted triple, after white space. -/
theorem readTerm_simple {ws cs rest : List Char} {c : Char} {t : Term}
    (hws : ∀ c ∈ ws, isBlank c = true) (hc : isBlank c = false)
    (hopen : c = '<' → cs.head? ≠ some '<') (h : simpleTerm (c :: cs) = .ok (t, rest)) :
    readTerm (ws ++ c :: cs) = .ok (t, rest) := by
  have hskip : skipBlanks (ws ++ c :: cs) = c :: cs := by
    rw [skipBlanks_append hws, skipBlanks_cons hc]
  rw [readTerm_of_not_open fun inner heq => ?_, hskip, h]
  rw [hskip] at heq
  obtain ⟨rfl, rfl⟩ := List.cons.inj heq
  exact hopen rfl rfl

theorem readTerm_iri {ws : List Char} (hws : ∀ c ∈ ws, isBlank c = true) {iri : String}
    (h : IsPrintableIri iri) (rest : List Char) :
    readTerm (ws ++ bracketIri iri.toList ++ rest) = .ok (.iri iri, rest) := by
  rw [List.append_assoc]
  refine readTerm_simple hws (by decide) (fun _ => ?_) (simpleTerm_iri h)
  cases hiri : iri.toList with
  | nil => simp
  | cons d ds => simpa [hiri] using h.not_open

/-- A printed term is read as the term, after any white space and before whatever ends it.  The
induction is on the term; its members are printed with a space before and after them. -/
theorem readTerm_toChars {t : Term} : ∀ ws rest : List Char, t.IsPrintable →
    (∀ c ∈ ws, isBlank c = true) → Ends rest →
    readTerm (ws ++ t.toChars ++ rest) = .ok (t, rest) := by
  induction t with
  | iri text =>
    intro ws rest h hws _
    exact readTerm_iri hws h rest
  | blank label =>
    intro ws rest h hws hrest
    rw [List.append_assoc]
    exact readTerm_simple hws (by decide) (fun heq => absurd heq (by decide))
      (simpleTerm_blank h hrest)
  | literal l =>
    intro ws rest h hws hrest
    have hread := simpleTerm_literal h hrest
    rw [toChars_literal] at hread
    rw [List.append_assoc, Term.toChars, toChars_literal]
    exact readTerm_simple hws (by decide) (fun heq => absurd heq (by decide)) hread
  | triple s p o ihs iho =>
    intro ws rest h hws _
    obtain ⟨hs, hp, ho⟩ := h
    have hspace : ∀ c ∈ [' '], isBlank c = true := List.forall_mem_singleton.2 rfl
    have hobject := iho [' '] (' ' :: '>' :: '>' :: rest) ho hspace (ends_cons (by decide) _)
    have hpredicate := readTerm_iri hspace hp (' ' :: o.toChars ++ ' ' :: '>' :: '>' :: rest)
    have hsubject := ihs [' ']
      (' ' :: bracketIri p.toList ++ (' ' :: o.toChars ++ ' ' :: '>' :: '>' :: rest)) hs hspace
      (ends_cons (by decide) _)
    have hskip : skipBlanks (ws ++ Term.toChars (.triple s p o) ++ rest)
        = '<' :: '<' :: ([' '] ++ s.toChars ++ (' ' :: bracketIri p.toList
          ++ (' ' :: o.toChars ++ ' ' :: '>' :: '>' :: rest))) := by
      rw [List.append_assoc, skipBlanks_append hws, Term.toChars]
      simp only [List.append_assoc, List.cons_append, List.nil_append]
      exact skipBlanks_cons (by decide) _
    rw [readTerm_of_open hskip, readMembers, hsubject]
    show (readTerm ([' '] ++ bracketIri p.toList ++ _) >>= _) = _
    rw [hpredicate]
    show (readTerm ([' '] ++ o.toChars ++ _) >>= _) = _
    rw [hobject]
    rfl

/-! ## What is read can be printed -/

/-- The datatypes of bare literals have no bracket in them. -/
theorem not_bracket_of_datatype? {token : List Char} {datatype : String}
    (h : Shorthand.datatype? token = some datatype) : '>' ∉ datatype.toList := by
  have hmem : datatype ∈ [Xsd.boolean, Xsd.integer, Xsd.double, Xsd.decimal] := by
    rw [Shorthand.datatype?] at h
    split at h
    · cases h
      decide
    rw [Shorthand.numberType?] at h
    split at h
    · cases h
    split at h
    · simp only at h
      split at h
      · cases h
        decide
      split at h
      · obtain ⟨_, _, rfl⟩ := Option.map_eq_some_iff.1 h
        decide
      split at h
      · cases h
        decide
      · cases h
    · cases h
  have hall : ∀ d ∈ [Xsd.boolean, Xsd.integer, Xsd.double, Xsd.decimal], '>' ∉ d.toList := by decide
  exact hall datatype hmem

theorem isPrintable_of_literalTail {label : String} {cs rest : List Char} {l : Literal}
    (h : literalTail label cs = .ok (l, rest)) : l.IsPrintable := by
  rw [literalTail.eq_def] at h
  split at h
  · next cs =>
    split at h
    · cases h
    · next hne =>
      cases h
      have hlanguage : String.ofList (token cs).1 ≠ "" := fun heq =>
        hne (by simpa using congrArg String.toList heq)
      rw [Literal.lang, dif_neg hlanguage]
      show IsToken (String.ofList (token cs).1).toList
      rw [String.toList_ofList]
      exact isToken_token hne
  · obtain ⟨⟨iri, r⟩, hbody, heq⟩ := ok_of_map h
    cases heq
    show '>' ∉ (String.ofList iri).toList
    rw [String.toList_ofList]
    exact (iriBody_ok hbody).1
  · cases h
  · cases h
    show '>' ∉ Xsd.string.toList
    decide

theorem isPrintable_of_literal {cs rest : List Char} {l : Literal}
    (h : literal cs = .ok (l, rest)) : l.IsPrintable := by
  rw [literal] at h
  split at h
  · cases h
  · exact isPrintable_of_literalTail h

theorem isPrintable_of_simpleTerm {cs rest : List Char} {t : Term}
    (hopen : ∀ inner, cs ≠ '<' :: '<' :: inner) (h : simpleTerm cs = .ok (t, rest)) :
    t.IsPrintable := by
  rw [simpleTerm.eq_def] at h
  split at h
  · next cs =>
    obtain ⟨⟨iri, r⟩, hbody, heq⟩ := ok_of_map h
    cases heq
    obtain ⟨hbracket, hstart⟩ := iriBody_ok hbody
    refine ⟨by rwa [String.toList_ofList], ?_⟩
    rw [String.toList_ofList]
    intro hhead
    -- The IRI starts where the text does, which then starts a quoted triple.
    obtain ⟨ds, rfl⟩ := List.head?_eq_some_iff.1 hhead
    obtain ⟨more, rfl⟩ := hstart
    exact hopen _ rfl
  · next cs =>
    split at h
    · cases h
    · next hne =>
      cases h
      show IsToken (String.ofList (token cs).1).toList
      rw [String.toList_ofList]
      exact isToken_token hne
  · obtain ⟨⟨l, r⟩, hliteral, heq⟩ := ok_of_map h
    cases heq
    exact isPrintable_of_literal hliteral
  · split at h
    · next l hshort =>
      cases h
      obtain ⟨datatype, hdatatype, rfl⟩ := Option.map_eq_some_iff.1 hshort
      exact not_bracket_of_datatype? hdatatype
    · cases h

theorem length_of_readTerm {cs rest : List Char} {t : Term} (h : readTerm cs = .ok (t, rest)) :
    rest.length < cs.length := by
  obtain ⟨⟨u, r⟩, -, heq⟩ := ok_of_map h
  cases heq
  exact r.property

/-- A quoted triple that is read is read member by member, each from what the one before it left. -/
theorem readMembers_ok {inner rest : List Char} {t : Term} (h : readMembers inner = .ok (t, rest)) :
    ∃ s p o r1 r2 r3, readTerm inner = .ok (s, r1) ∧ readTerm r1 = .ok (.iri p, r2)
      ∧ readTerm r2 = .ok (o, r3) ∧ t = .triple s p o := by
  obtain ⟨⟨s, r1⟩, hs, h⟩ := ok_of_bind h
  obtain ⟨⟨p, r2⟩, hp, h⟩ := ok_of_bind h
  obtain ⟨⟨o, r3⟩, ho, h⟩ := ok_of_bind h
  obtain ⟨r4, -, h⟩ := ok_of_bind h
  cases p with
  | iri p =>
    cases h
    exact ⟨s, p, o, r1, r2, r3, hs, hp, ho, rfl⟩
  | _ => cases h

/-- Every term that is read can be told from what follows it.  The induction is on the length of
the text, since a quoted triple is read from inside it. -/
theorem isPrintable_of_readTerm {cs rest : List Char} {t : Term}
    (h : readTerm cs = .ok (t, rest)) : t.IsPrintable := by
  induction hn : cs.length using Nat.strongRecOn generalizing cs rest t with
  | ind n ih =>
    by_cases hopen : ∃ inner, skipBlanks cs = '<' :: '<' :: inner
    · obtain ⟨inner, hskip⟩ := hopen
      rw [readTerm_of_open hskip] at h
      obtain ⟨s, p, o, r1, r2, r3, hs, hp, ho, rfl⟩ := readMembers_ok h
      have h0 := length_of_open hskip
      have h1 := length_of_readTerm hs
      have h2 := length_of_readTerm hp
      exact ⟨ih _ (by omega) hs rfl, ih _ (by omega) hp rfl, ih _ (by omega) ho rfl⟩
    · have hno : ∀ inner, skipBlanks cs ≠ '<' :: '<' :: inner := fun inner heq => hopen ⟨inner, heq⟩
      rw [readTerm_of_not_open hno] at h
      exact isPrintable_of_simpleTerm hno h

end Parser

/-! ## Whole texts -/

open RdfIndex.Parser

theorem Term.parse_text_of_isPrintable {t : Term} (h : t.IsPrintable) :
    Term.parse t.text = .ok t := by
  have hread := readTerm_toChars [] [] h (fun c hc => by cases hc) ends_nil
  rw [List.nil_append, List.append_nil] at hread
  rw [Term.parse, Term.text, String.toList_ofList, hread]
  rfl

theorem Term.isPrintable_of_parse {source : String} {t : Term} (h : Term.parse source = .ok t) :
    t.IsPrintable := by
  rw [Term.parse] at h
  split at h
  · cases h
  · next hread =>
    split at h
    · cases h
      exact isPrintable_of_readTerm hread
    · cases h

namespace Quad

/-- What is printed of a context. -/
def contextChars (context : Option Term) : List Char :=
  match context with
  | none => []
  | some c => ' ' :: c.toChars

/-- A printed term starts with a character that is neither white space nor the dot of a
statement. -/
theorem toChars_eq_cons (t : Term) : ∃ c cs, t.toChars = c :: cs ∧ isBlank c = false ∧ c ≠ '.' := by
  cases t with
  | iri text => exact ⟨'<', _, rfl, by decide, by decide⟩
  | blank label => exact ⟨'_', _, rfl, by decide, by decide⟩
  | literal l => exact ⟨'"', _, toChars_literal l, by decide, by decide⟩
  | triple s p o => exact ⟨'<', _, rfl, by decide, by decide⟩

/-- A context is read off its printed form, after any white space. -/
theorem readContext_append {c : Term} (h : c.IsPrintable) {ws rest : List Char}
    (hws : ∀ c ∈ ws, isBlank c = true) (hrest : Ends rest) :
    readContext (ws ++ c.toChars ++ rest) = .ok (some c, rest) := by
  obtain ⟨d, ds, hchars, hblank, hdot⟩ := toChars_eq_cons c
  have hskip : skipBlanks (ws ++ c.toChars ++ rest) = c.toChars ++ rest := by
    rw [List.append_assoc, skipBlanks_append hws, hchars, List.cons_append, skipBlanks_cons hblank]
  have hne : ¬ (c.toChars ++ rest = [] ∨ c.toChars ++ rest = ['.']) := by
    rw [hchars, List.cons_append]
    rintro (heq | heq)
    · cases heq
    · exact hdot (List.cons.inj heq).1
  have hread := readTerm_toChars [] rest h (fun c hc => by cases hc) hrest
  rw [List.nil_append] at hread
  rw [readContext, hskip]
  simp only [if_neg hne, hread]
  rfl

/-- The context is read off what is printed of it, and nothing but the dot is left. -/
theorem readContext_toChars {context : Option Term} (h : ∀ c ∈ context, c.IsPrintable) :
    ∃ rest, readContext (contextChars context ++ [' ', '.']) = .ok (context, rest)
      ∧ skipDot rest = [] := by
  cases context with
  | none => exact ⟨['.'], rfl, rfl⟩
  | some c =>
    exact ⟨[' ', '.'], readContext_append (h c rfl) (List.forall_mem_singleton.2 rfl)
      (ends_cons (by decide) _), rfl⟩

/-- The terms of a statement are read one after the other, with white space between them, and then
its context and its end. -/
theorem readTerms_append {q : Quad} (h : q.IsPrintable) {before first second tail : List Char}
    (hbefore : ∀ c ∈ before, isBlank c = true)
    (hfirst : first ≠ [] ∧ ∀ c ∈ first, isBlank c = true)
    (hsecond : second ≠ [] ∧ ∀ c ∈ second, isBlank c = true) (htail : Ends tail) :
    readTerms (before ++ q.subject.toChars
        ++ (first ++ q.predicate.toChars ++ (second ++ q.object.toChars ++ tail)))
      = (do
        let (context, rest) ← readContext tail
        match skipDot rest with
        | [] => return ⟨q.subject, q.predicate, q.object, context⟩
        | rest => throw ⟨.trailing, rest⟩) := by
  have hobject := readTerm_toChars second tail h.object hsecond.2 htail
  have hpredicate := readTerm_toChars first (second ++ q.object.toChars ++ tail) h.predicate
    hfirst.2 (by simpa only [List.append_assoc] using ends_append hsecond.1 hsecond.2 _)
  have hsubject := readTerm_toChars before
    (first ++ q.predicate.toChars ++ (second ++ q.object.toChars ++ tail)) h.subject hbefore
    (by simpa only [List.append_assoc] using ends_append hfirst.1 hfirst.2 _)
  rw [readTerms, hsubject]
  show (readTerm (first ++ q.predicate.toChars ++ _) >>= _) = _
  rw [hpredicate]
  show (readTerm (second ++ q.object.toChars ++ _) >>= _) = _
  rw [hobject]
  rfl

theorem readTerms_toChars {q : Quad} (h : q.IsPrintable) : readTerms q.toChars = .ok q := by
  obtain ⟨rest, hcontext, hdot⟩ := readContext_toChars h.context
  have hspace : [' '] ≠ [] ∧ ∀ c ∈ [' '], isBlank c = true :=
    ⟨List.cons_ne_nil _ _, List.forall_mem_singleton.2 rfl⟩
  have hends : Ends (contextChars q.context ++ [' ', '.']) := by
    cases q.context with
    | none => exact ends_cons (by decide) _
    | some c => exact ends_cons (by decide) _
  have hchars : q.toChars = [] ++ q.subject.toChars ++ ([' '] ++ q.predicate.toChars
      ++ ([' '] ++ q.object.toChars ++ (contextChars q.context ++ [' ', '.']))) := by
    have hprinted : q.toChars = q.subject.toChars ++ ' ' :: q.predicate.toChars
        ++ ' ' :: q.object.toChars ++ contextChars q.context ++ [' ', '.'] := rfl
    rw [hprinted]
    simp only [List.append_assoc, List.cons_append, List.nil_append]
  rw [hchars, readTerms_append h (fun c hc => by cases hc) hspace hspace hends, hcontext]
  simp only [bind, Except.bind, hdot]
  rfl

theorem isPrintable_of_readContext {cs rest : List Char} {context : Option Term}
    (h : readContext cs = .ok (context, rest)) : ∀ c ∈ context, c.IsPrintable := by
  rw [readContext] at h
  simp only at h
  split at h
  · cases h
    intro c hc
    cases hc
  · obtain ⟨⟨t, r⟩, hread, heq⟩ := ok_of_map h
    cases heq
    intro c hc
    cases hc
    exact isPrintable_of_readTerm hread

theorem isPrintable_of_readTerms {cs : List Char} {q : Quad} (h : readTerms cs = .ok q) :
    q.IsPrintable := by
  obtain ⟨⟨s, r1⟩, hs, h⟩ := ok_of_bind h
  obtain ⟨⟨p, r2⟩, hp, h⟩ := ok_of_bind h
  obtain ⟨⟨o, r3⟩, ho, h⟩ := ok_of_bind h
  obtain ⟨⟨c, r4⟩, hc, h⟩ := ok_of_bind h
  simp only at h
  split at h
  · cases h
    exact ⟨isPrintable_of_readTerm hs, isPrintable_of_readTerm hp, isPrintable_of_readTerm ho,
      isPrintable_of_readContext hc⟩
  · cases h

/-- What passes the check is what was checked. -/
theorem eq_of_check {q q' : Quad} (h : check q = .ok q') : q = q' := by
  rw [check] at h
  split at h
  · cases h
  split at h
  · cases h
  split at h
  · cases h
  · exact Except.ok.inj h

/-- What a text is read as, and that it passes the check. -/
theorem readTerms_of_parse {source : String} {q : Quad} (h : Quad.parse source = .ok q) :
    readTerms source.toList = .ok q ∧ check q = .ok q := by
  rw [parse] at h
  split at h
  · cases h
  · next q' hread =>
    obtain rfl := eq_of_check h
    exact ⟨hread, h⟩

theorem parse_text_of_parse {source : String} {q : Quad} (h : Quad.parse source = .ok q) :
    Quad.parse q.text = .ok q := by
  obtain ⟨hread, hcheck⟩ := readTerms_of_parse h
  rw [parse, text, String.toList_ofList, readTerms_toChars (isPrintable_of_readTerms hread)]
  exact hcheck

end Quad

/-- Printing loses nothing.  A term whose IRIs, blank nodes and languages can be told from what
follows them is read off its printed form.  Every term that is read off some text is such a term,
so it is read off its own printed form as well, and the same holds of statements. -/
theorem parse_text :
    (∀ t : Term, t.IsPrintable → Term.parse t.text = .ok t)
    ∧ (∀ (source : String) (t : Term), Term.parse source = .ok t →
      t.IsPrintable ∧ Term.parse t.text = .ok t)
    ∧ ∀ (source : String) (q : Quad), Quad.parse source = .ok q → Quad.parse q.text = .ok q :=
  ⟨fun _ => Term.parse_text_of_isPrintable,
    fun _ _ h => ⟨Term.isPrintable_of_parse h,
      Term.parse_text_of_isPrintable (Term.isPrintable_of_parse h)⟩,
    fun _ _ => Quad.parse_text_of_parse⟩

/-- A quoted triple with a blank node that ends as a bracket does, and a label with all that is
escaped. -/
def Term.bracketed : Term :=
  .triple (.blank "a>") "urn:p" (.triple (.iri "") "p" (.literal (.lang "\t\"\\>>\n" "en-GB")))

/-- A quoted triple of a bare number. -/
def Term.scaled : Term := .triple (.blank "x") "p" (.literal (.typed "4.20" Xsd.decimal))

/-- A statement of a bare truth value, in a graph whose name ends with a dot. -/
def Quad.dotted : Quad :=
  ⟨.blank "s", .iri "p", .literal (.typed "true" Xsd.boolean), some (.blank "g.")⟩

theorem parse_text_bracketed :
    (Term.bracketed.IsPrintable ∧ Term.parse Term.bracketed.text = .ok .bracketed)
    ∧ (Term.parse "<<_:x\n<p> 4.20 >>" = .ok .scaled ∧ Term.scaled.IsPrintable
      ∧ Term.parse Term.scaled.text = .ok .scaled)
    ∧ Quad.parse "_:s\t<p> true _:g." = .ok .dotted
    ∧ Quad.parse Quad.dotted.text = .ok .dotted := by
  have hterm : Term.bracketed.IsPrintable := by decide +kernel
  have hscaled : Term.parse "<<_:x\n<p> 4.20 >>" = .ok .scaled := ok_of_toOption (by decide +kernel)
  have hdotted : Quad.parse "_:s\t<p> true _:g." = .ok .dotted := ok_of_toOption (by decide +kernel)
  exact ⟨⟨hterm, parse_text.1 _ hterm⟩, ⟨hscaled, parse_text.2.1 _ _ hscaled⟩, hdotted,
    parse_text.2.2 _ _ hdotted⟩

end RdfIndex
