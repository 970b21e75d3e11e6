import RdfIndex.Proofs.Term.RoundTrip

/-!
# The white space of statements

A statement may be laid out with any white space before its terms and after them, and with or
without its dot (`Quad.layout`).  In whatever way it is laid out it is read as itself, but for one
(`Quad.parse_layout`): where there is no context and white space follows the dot, the dot is not the
whole of what is left after the object.  It is then taken for a context, which it is not.
-/

namespace RdfIndex

open RdfIndex.Parser

/-- White space. -/
structure Blanks where
  chars : List Char
  all_blank : chars.all isBlank = true

/-- White space that parts what stands before it from what stands after it. -/
structure Gap extends Blanks where
  ne_nil : chars ≠ []

theorem Blanks.blank (ws : Blanks) : ∀ c ∈ ws.chars, isBlank c = true :=
  List.all_eq_true.1 ws.all_blank

theorem Gap.parts (gap : Gap) : gap.chars ≠ [] ∧ ∀ c ∈ gap.chars, isBlank c = true :=
  ⟨gap.ne_nil, gap.blank⟩

namespace Quad

/-- What stands after the last term of a statement. -/
inductive Ending where
  | bare (after : Blanks)
  | dot (gap : Gap) (after : Blanks)

namespace Ending

def chars : Ending → List Char
  | .bare after => after.chars
  | .dot gap after => gap.chars ++ '.' :: after.chars

/-- Nothing follows the dot, if there is one. -/
def StopsAtDot : Ending → Prop
  | .bare _ => True
  | .dot _ after => after.chars = []

theorem ends (e : Ending) : Ends e.chars := by
  cases e with
  | bare after => exact ends_of_blank after.blank
  | dot gap after => exact ends_append gap.ne_nil gap.blank _

theorem skipDot_chars (e : Ending) : skipDot e.chars = [] := by
  cases e with
  | bare after =>
    rw [skipDot, chars, skipBlanks_of_blank after.blank]
    rfl
  | dot gap after =>
    rw [skipDot, chars, skipBlanks_append gap.blank, skipBlanks_cons (by decide)]
    exact skipBlanks_of_blank after.blank

end Ending

/-- The white space of a statement, and its end.  What stands before the context counts only if
there is one. -/
structure Spacing where
  subject : Blanks
  predicate : Gap
  object : Gap
  context : Gap
  ending : Ending

/-- What is laid out after the object. -/
def Spacing.tail (s : Spacing) : Option Term → List Char
  | none => s.ending.chars
  | some c => s.context.chars ++ c.toChars ++ s.ending.chars

/-- A statement with the given white space around its terms. -/
def layout (q : Quad) (s : Spacing) : String :=
  String.ofList (s.subject.chars ++ q.subject.toChars
    ++ (s.predicate.chars ++ q.predicate.toChars
      ++ (s.object.chars ++ q.object.toChars ++ s.tail q.context)))

theorem Spacing.ends_tail (s : Spacing) (context : Option Term) : Ends (s.tail context) := by
  cases context with
  | none => exact s.ending.ends
  | some c =>
    rw [tail, List.append_assoc]
    exact ends_append s.context.ne_nil s.context.blank _

/-! ## The end of a statement -/

/-- A dot with white space after it is read as a bare word, which is none. -/
theorem readTerm_dot {after : List Char} (h : Ends after) :
    readTerm ('.' :: after) = .error ⟨.unrecognised, after⟩ := by
  have hdot : IsToken ['.'] := by decide
  have htoken : token ('.' :: after) = (['.'], after) := token_of_isToken hdot h
  have hword : Shorthand.literal? ['.'] = none := by decide
  have hskip : skipBlanks ('.' :: after) = '.' :: after := skipBlanks_cons (by decide) after
  rw [readTerm_of_not_open (fun inner heq => by rw [hskip] at heq; cases heq), hskip, simpleTerm]
  · simp only [htoken, hword]
  · exact fun _ heq => by cases heq
  · exact fun _ heq => by cases heq
  · exact fun _ heq => by cases heq

/-- After the object nothing is left but the dot, or it is taken for a context. -/
theorem readContext_ending (e : Ending) :
    (e.StopsAtDot ∧ ∃ rest, readContext e.chars = .ok (none, rest) ∧ skipDot rest = [])
    ∨ ∃ gap after, e = .dot gap after ∧ after.chars ≠ []
      ∧ readContext e.chars = .error ⟨.unrecognised, after.chars⟩ := by
  cases e with
  | bare after =>
    refine .inl ⟨trivial, [], ?_, rfl⟩
    rw [readContext, Ending.chars, skipBlanks_of_blank after.blank]
    rfl
  | dot gap after =>
    have hskip : skipBlanks (Ending.dot gap after).chars = '.' :: after.chars := by
      rw [Ending.chars, skipBlanks_append gap.blank, skipBlanks_cons (by decide)]
    rw [readContext, hskip]
    by_cases hafter : after.chars = []
    · refine .inl ⟨hafter, ['.'], ?_, rfl⟩
      rw [hafter]
      rfl
    · refine .inr ⟨gap, after, rfl, hafter, ?_⟩
      have hne : ¬ ('.' :: after.chars = [] ∨ '.' :: after.chars = ['.']) := by
        rintro (heq | heq)
        · cases heq
        · exact hafter (List.cons.inj heq).2
      simp only [if_neg hne, readTerm_dot (ends_of_blank after.blank)]
      rfl

/-! ## Whole statements -/

theorem readTerms_layout {q : Quad} (h : q.IsPrintable) (s : Spacing) :
    readTerms (q.layout s).toList = (do
      let (context, rest) ← readContext (s.tail q.context)
      match skipDot rest with
      | [] => return ⟨q.subject, q.predicate, q.object, context⟩
      | rest => throw ⟨.trailing, rest⟩) := by
  rw [layout, String.toList_ofList]
  exact readTerms_append h s.subject.blank s.predicate.parts s.object.parts (s.ends_tail q.context)

theorem readTerms_layout_of_tail {q : Quad} (h : q.IsPrintable) {s : Spacing} {rest : List Char}
    (htail : readContext (s.tail q.context) = .ok (q.context, rest)) (hdot : skipDot rest = []) :
    readTerms (q.layout s).toList = .ok q := by
  rw [readTerms_layout h, htail]
  simp only [bind, Except.bind, hdot]
  rfl

theorem readTerms_layout_of_error {q : Quad} (h : q.IsPrintable) {s : Spacing} {e : ParseFault}
    (htail : readContext (s.tail q.context) = .error e) :
    readTerms (q.layout s).toList = .error e := by
  rw [readTerms_layout h, htail]
  rfl

/-- A statement that is read off some text is read off each of its layouts, but for those without a
context where white space follows the dot.  There the dot is read as a term, which fails. -/
theorem parse_layout {source : String} {q : Quad} (h : Quad.parse source = .ok q) (s : Spacing) :
    (Quad.parse (q.layout s) = .ok q ↔ (q.context = none → s.ending.StopsAtDot))
    ∧ ∀ gap after, q.context = none → s.ending = .dot gap after → after.chars ≠ [] →
      Quad.parse (q.layout s) = .error (.text ⟨.unrecognised, after.chars⟩) := by
  obtain ⟨hread, hcheck⟩ := readTerms_of_parse h
  have hprintable := isPrintable_of_readTerms hread
  have hok : readTerms (q.layout s).toList = .ok q → Quad.parse (q.layout s) = .ok q := by
    intro hlayout
    rw [parse, hlayout]
    exact hcheck
  cases hcontext : q.context with
  | some c =>
    have htail : readContext (s.tail q.context) = .ok (q.context, s.ending.chars) := by
      rw [hcontext]
      exact readContext_append (hprintable.context c hcontext) s.context.blank s.ending.ends
    have hparse := hok (readTerms_layout_of_tail hprintable htail s.ending.skipDot_chars)
    refine ⟨⟨fun _ hnone => ?_, fun _ => hparse⟩, fun _ _ hnone => ?_⟩
    · cases hnone
    · cases hnone
  | none =>
    rcases readContext_ending s.ending with
      ⟨hstops, rest, htail, hdot⟩ | ⟨gap, after, he, hne, htail⟩
    · have hparse := hok (readTerms_layout_of_tail hprintable (by rw [hcontext]; exact htail) hdot)
      refine ⟨⟨fun _ _ => hstops, fun _ => hparse⟩, fun gap after _ he hne => ?_⟩
      rw [he] at hstops
      exact absurd hstops hne
    · have hparse : Quad.parse (q.layout s) = .error (.text ⟨.unrecognised, after.chars⟩) := by
        rw [parse, readTerms_layout_of_error hprintable (by rw [hcontext]; exact htail)]
      refine ⟨⟨fun hparse' => ?_, fun hstops => ?_⟩, fun gap' after' _ he' _ => ?_⟩
      · rw [hparse] at hparse'
        cases hparse'
      · have hstops := hstops rfl
        rw [he] at hstops
        exact absurd hstops hne
      · rw [he] at he'
        cases he'
        exact hparse

/-- White space that is not of ASCII, before a dot and after it. -/
def Spacing.wide : Spacing where
  subject := ⟨['\n'], rfl⟩
  predicate := ⟨⟨['\t', ' '], rfl⟩, nofun⟩
  object := ⟨⟨['\u2003'], rfl⟩, nofun⟩
  context := ⟨⟨['\u3000', '\u00a0'], rfl⟩, nofun⟩
  ending := .dot ⟨⟨['\r', '\n'], rfl⟩, nofun⟩ ⟨['\n'], rfl⟩

/-- One space between terms, and a line of its own. -/
def Spacing.line : Spacing where
  subject := ⟨[], rfl⟩
  predicate := ⟨⟨[' '], rfl⟩, nofun⟩
  object := ⟨⟨[' '], rfl⟩, nofun⟩
  context := ⟨⟨[' '], rfl⟩, nofun⟩
  ending := .dot ⟨⟨[' '], rfl⟩, nofun⟩ ⟨['\n'], rfl⟩

/-- A statement without a context. -/
def plain : Quad := ⟨.iri "urn:s", .iri "urn:p", .iri "urn:o", none⟩

theorem parse_layout_wide :
    (Quad.parse "_:s\t<p> true _:g." = .ok .dotted
      ∧ Quad.parse (Quad.dotted.layout .wide) = .ok .dotted)
    ∧ Quad.parse "<urn:s> <urn:p> <urn:o>" = .ok plain
    ∧ Quad.parse (plain.layout .line) = .error (.text ⟨.unrecognised, ['\n']⟩) := by
  have hdotted : Quad.parse "_:s\t<p> true _:g." = .ok .dotted := ok_of_toOption (by decide +kernel)
  have hplain : Quad.parse "<urn:s> <urn:p> <urn:o>" = .ok plain :=
    ok_of_toOption (by decide +kernel)
  exact ⟨⟨hdotted, (parse_layout hdotted .wide).1.2 nofun⟩, hplain,
    (parse_layout hplain .line).2 _ _ rfl rfl (by decide)⟩

/-- The statement is read without the end of the line, and not with it. -/
theorem parse_layout_line : Quad.parse "<urn:s> <urn:p> <urn:o> ." = .ok plain
    ∧ plain.layout .line = "<urn:s> <urn:p> <urn:o> .\n"
    ∧ Quad.parse (plain.layout .line) ≠ .ok plain := by
  refine ⟨ok_of_toOption (by decide +kernel), by decide +kernel, fun h => ?_⟩
  have hnone : (Quad.parse (plain.layout .line)).toOption = none := by decide +kernel
  rw [h] at hnone
  cases hnone

end Quad

end RdfIndex
