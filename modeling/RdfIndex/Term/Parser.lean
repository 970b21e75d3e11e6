import RdfIndex.Term.Printer
import RdfIndex.Term.Shorthand
import RdfIndex.Text.Blank
import RdfIndex.Text.CodePoint
import RdfIndex.Text.Utf8

/-!
# Reading terms and statements

The reader takes the notation of the printer and, besides it, bare literals (`Shorthand`), white
space in any amount between terms, and a statement without its dot.

Every reader is a function of the text that is left.  A fault keeps the text that was left when it
arose, and its place is the number of bytes before that text.  `readTerm` calls itself on what a
reader before it left, and each reader leaves less than it was given, which bounds the recursion.
-/

namespace RdfIndex

/-- Why a text is no term. -/
inductive ParseCause where
  /-- A quoted triple is not closed after its object. -/
  | expectedClose
  /-- The predicate of a quoted triple is no IRI. -/
  | triplePredicate
  | emptyBlank
  /-- No term starts here. -/
  | unrecognised
  | unterminatedIri
  | unterminatedString
  | danglingEscape
  /-- An escape by number names no character. -/
  | invalidUnicodeEscape
  | unknownEscape
  | emptyLanguage
  | expectedDatatype
  /-- The text goes on after its end. -/
  | trailing
deriving DecidableEq, Repr

/-- The wording of a cause. -/
def ParseCause.message : ParseCause → String
  | expectedClose => "expected '>>'"
  | triplePredicate => "quoted triple predicate must be an IRI"
  | emptyBlank => "empty blank node label"
  | unrecognised => "unrecognised term"
  | unterminatedIri => "unterminated IRI"
  | unterminatedString => "unterminated string"
  | danglingEscape => "dangling escape"
  | invalidUnicodeEscape => "invalid unicode escape"
  | unknownEscape => "unknown escape"
  | emptyLanguage => "empty language tag"
  | expectedDatatype => "expected datatype IRI"
  | trailing => "trailing input"

/-- A cause and the text that was left when it arose. -/
structure ParseFault where
  cause : ParseCause
  /-- The text that was left. -/
  rest : List Char
deriving DecidableEq, Repr

/-- The wording of a fault in a text. -/
def ParseFault.message (f : ParseFault) (source : String) : String :=
  let offset := Utf8.size source.toList - Utf8.size f.rest
  s!"{f.cause.message} at offset {offset} in {Quoted.string source}"

namespace Parser

/-! ## Tokens -/

/-- The text up to the next white space or closing `>>`, and what follows it. -/
def token : List Char → List Char × List Char
  | [] => ([], [])
  | '>' :: '>' :: cs => ([], '>' :: '>' :: cs)
  | c :: cs =>
    if isBlank c then ([], c :: cs)
    else
      let (t, rest) := token cs
      (c :: t, rest)

/-- A token leaves no more than it was given. -/
theorem length_token_le (cs : List Char) : (token cs).2.length ≤ cs.length := by
  fun_induction token cs with
  | case1 => simp
  | case2 => simp
  | case3 c cs _ _ => simp
  | case4 c cs _ _ t rest h ih =>
    rw [h] at ih
    simp only [List.length_cons]
    exact Nat.le_succ_of_le ih

/-- The text of an IRI up to its bracket, and what follows the bracket. -/
def iriBody (cs : List Char) : Except ParseFault (List Char × List Char) :=
  match cs.dropWhile (· != '>') with
  | _ :: rest => .ok (cs.takeWhile (· != '>'), rest)
  | [] => .error ⟨.unterminatedIri, cs⟩

/-- An IRI leaves less than it was given. -/
theorem length_of_iriBody {cs iri rest : List Char} (h : iriBody cs = .ok (iri, rest)) :
    rest.length < cs.length := by
  have hle := (List.dropWhile_sublist (l := cs) (· != '>')).length_le
  unfold iriBody at h
  split at h
  · next c r hd =>
    rw [hd] at hle
    simp only [Except.ok.injEq, Prod.mk.injEq] at h
    obtain ⟨-, rfl⟩ := h
    exact hle
  · simp at h

/-! ## Labels -/

/-- The character that an escape of `width` characters names.  A plus sign may take the place of
the first digit. -/
def codeEscape? (width : Nat) (cs : List Char) : Option Char :=
  if cs.length = width then
    let ds :=
      match cs with
      | '+' :: ds => ds
      | ds => ds
    (CodePoint.hexNumber? ds).bind CodePoint.char?
  else none

def shortEscape? (c : Char) : Option Char :=
  match c with
  | 'n' => some '\n'
  | 'r' => some '\r'
  | 't' => some '\t'
  | '"' => some '"'
  | '\'' => some '\''
  | '\\' => some '\\'
  | _ => none

/-- The number of characters that follow the letter of an escape by number. -/
def codeWidth? (c : Char) : Option Nat :=
  match c with
  | 'u' => some 4
  | 'U' => some 8
  | _ => none

/-- One step through the text of a label. -/
inductive LabelStep where
  /-- The closing quote, with what follows it. -/
  | close (rest : List Char)
  /-- A character of the label, with what follows it. -/
  | char (c : Char) (rest : List Char)
  /-- The label goes wrong. -/
  | fault (cause : ParseCause)

/-- The first step through the text of a label. -/
def labelStep : List Char → LabelStep
  | [] => .fault .unterminatedString
  | '"' :: rest => .close rest
  | ['\\'] => .fault .danglingEscape
  | '\\' :: e :: rest =>
    match shortEscape? e, codeWidth? e with
    | some c, _ => .char c rest
    | none, some width =>
      match codeEscape? width (rest.take width) with
      | some c => .char c (rest.drop width)
      | none => .fault .invalidUnicodeEscape
    | none, none => .fault .unknownEscape
  | c :: rest => .char c rest

/-- A step leaves less than it was given. -/
theorem length_of_labelStep {cs rest : List Char} {c : Char} (h : labelStep cs = .char c rest) :
    rest.length < cs.length := by
  unfold labelStep at h
  split at h
  · simp at h
  · simp at h
  · simp at h
  · split at h
    · simp only [LabelStep.char.injEq] at h
      simp only [← h.2, List.length_cons]
      omega
    · split at h
      · simp only [LabelStep.char.injEq] at h
        simp only [← h.2, List.length_cons, List.length_drop]
        omega
      · simp at h
    · simp at h
  · simp only [LabelStep.char.injEq] at h
    simp [← h.2]

/-- The closing quote leaves less than it was given. -/
theorem length_of_labelStep_close {cs rest : List Char} (h : labelStep cs = .close rest) :
    rest.length < cs.length := by
  unfold labelStep at h
  split at h
  · simp at h
  · simp only [LabelStep.close.injEq] at h
    simp [← h]
  · simp at h
  · split at h
    · simp at h
    · split at h <;> simp at h
    · simp at h
  · simp at h

/-- The characters of a label up to its closing quote, and what follows it.  `done` holds the
characters before, last one first. -/
def labelBody (done cs : List Char) : Except ParseCause (List Char × List Char) :=
  match h : labelStep cs with
  | .fault cause => .error cause
  | .close rest => .ok (done.reverse, rest)
  | .char c rest =>
    have := length_of_labelStep h
    labelBody (c :: done) rest
termination_by cs.length

/-- A label leaves less than it was given. -/
theorem length_of_labelBody {done cs label rest : List Char}
    (h : labelBody done cs = .ok (label, rest)) : rest.length < cs.length := by
  fun_induction labelBody done cs with
  | case1 => simp at h
  | case2 done cs r hs =>
    simp only [Except.ok.injEq, Prod.mk.injEq] at h
    rw [← h.2]
    exact length_of_labelStep_close hs
  | case3 done cs c r hs _ ih => exact Nat.lt_trans (ih h) (length_of_labelStep hs)

/-- What follows the closing quote of a label: a language, a datatype or nothing. -/
def literalTail (label : String) (cs : List Char) : Except ParseFault (Literal × List Char) :=
  match cs with
  | '@' :: cs =>
    if (token cs).1 = [] then .error ⟨.emptyLanguage, (token cs).2⟩
    else .ok (.lang label (String.ofList (token cs).1), (token cs).2)
  | '^' :: '^' :: '<' :: cs =>
    (iriBody cs).map fun (iri, rest) => (.typed label (String.ofList iri), rest)
  | '^' :: '^' :: cs => .error ⟨.expectedDatatype, cs⟩
  | cs => .ok (.string label, cs)

/-- The end of a literal leaves no more than it was given. -/
theorem length_of_literalTail {label : String} {cs rest : List Char} {l : Literal}
    (h : literalTail label cs = .ok (l, rest)) : rest.length ≤ cs.length := by
  unfold literalTail at h
  split at h
  · next cs =>
    split at h
    · simp at h
    · simp only [Except.ok.injEq, Prod.mk.injEq] at h
      rw [← h.2]
      exact Nat.le_succ_of_le (length_token_le cs)
  · next cs =>
    cases hb : iriBody cs with
    | error e => simp [hb, Except.map] at h
    | ok p =>
      obtain ⟨iri, r⟩ := p
      simp only [hb, Except.map, Except.ok.injEq, Prod.mk.injEq] at h
      have := length_of_iriBody hb
      simp only [← h.2, List.length_cons]
      omega
  · simp at h
  · simp only [Except.ok.injEq, Prod.mk.injEq] at h
    exact Nat.le_of_eq (by rw [h.2])

/-- A literal after its opening quote. -/
def literal (cs : List Char) : Except ParseFault (Literal × List Char) :=
  match labelBody [] cs with
  | .error cause => .error ⟨cause, cs⟩
  | .ok (label, rest) => literalTail (String.ofList label) rest

/-- A literal leaves less than it was given. -/
theorem length_of_literal {cs rest : List Char} {l : Literal} (h : literal cs = .ok (l, rest)) :
    rest.length < cs.length := by
  unfold literal at h
  split at h
  · simp at h
  · next label r hb =>
    exact Nat.lt_of_le_of_lt (length_of_literalTail h) (length_of_labelBody hb)

/-! ## Terms -/

/-- A term that is no quoted triple, from its first character on. -/
def simpleTerm (cs : List Char) : Except ParseFault (Term × List Char) :=
  match cs with
  | '<' :: cs => (iriBody cs).map fun (iri, rest) => (.iri (String.ofList iri), rest)
  | '_' :: ':' :: cs =>
    if (token cs).1 = [] then .error ⟨.emptyBlank, (token cs).2⟩
    else .ok (.blank (String.ofList (token cs).1), (token cs).2)
  | '"' :: cs => (literal cs).map fun (l, rest) => (.literal l, rest)
  | _ =>
    match Shorthand.literal? (token cs).1 with
    | some l => .ok (.literal l, (token cs).2)
    | none => .error ⟨.unrecognised, (token cs).2⟩

/-- A term of no characters is no bare literal. -/
theorem literal?_nil : Shorthand.literal? [] = none := rfl

/-- A nonempty token leaves less than it was given. -/
theorem length_token_lt {cs : List Char} (h : (token cs).1 ≠ []) :
    (token cs).2.length < cs.length := by
  unfold token at h ⊢
  split at h
  · simp at h
  · simp at h
  · next c cs _ =>
    by_cases hb : isBlank c = true
    · simp [hb] at h
    · simp only [hb, Bool.false_eq_true, if_false, List.length_cons]
      exact Nat.lt_succ_of_le (length_token_le cs)

/-- A simple term leaves less than it was given. -/
theorem length_of_simpleTerm {cs rest : List Char} {t : Term}
    (h : simpleTerm cs = .ok (t, rest)) : rest.length < cs.length := by
  unfold simpleTerm at h
  split at h
  · next cs =>
    cases hb : iriBody cs with
    | error e => simp [hb, Except.map] at h
    | ok p =>
      obtain ⟨iri, r⟩ := p
      simp only [hb, Except.map, Except.ok.injEq, Prod.mk.injEq] at h
      have := length_of_iriBody hb
      simp only [← h.2, List.length_cons]
      omega
  · next cs =>
    split at h
    · simp at h
    · simp only [Except.ok.injEq, Prod.mk.injEq] at h
      have := length_token_le cs
      simp only [← h.2, List.length_cons]
      omega
  · next cs =>
    cases hb : literal cs with
    | error e => simp [hb, Except.map] at h
    | ok p =>
      obtain ⟨l, r⟩ := p
      simp only [hb, Except.map, Except.ok.injEq, Prod.mk.injEq] at h
      have := length_of_literal hb
      simp only [← h.2, List.length_cons]
      omega
  · cases hs : Shorthand.literal? (token cs).1 with
    | none => simp [hs] at h
    | some l =>
      simp only [hs, Except.ok.injEq, Prod.mk.injEq] at h
      rw [← h.2]
      refine length_token_lt fun hn => ?_
      rw [hn, literal?_nil] at hs
      cases hs

/-- The text after the closing `>>`, with the white space before it skipped. -/
def close? (cs : List Char) : Except ParseFault (List Char) :=
  match skipBlanks cs with
  | '>' :: '>' :: rest => .ok rest
  | rest => .error ⟨.expectedClose, rest⟩

/-- Closing leaves less than it was given. -/
theorem length_of_close? {cs rest : List Char} (h : close? cs = .ok rest) :
    rest.length < cs.length := by
  have hle := length_skipBlanks_le cs
  unfold close? at h
  split at h
  · next r hd =>
    rw [hd] at hle
    simp only [Except.ok.injEq] at h
    rw [← h]
    simp only [List.length_cons] at hle
    omega
  · simp at h

/-- What is left of a text after a term. -/
abbrev Shorter (cs : List Char) := { rest : List Char // rest.length < cs.length }

/-- What follows the opening `<<`, with white space before it, is less than the text. -/
theorem length_of_open {cs inner : List Char} (h : skipBlanks cs = '<' :: '<' :: inner) :
    inner.length < cs.length := by
  have hle := length_skipBlanks_le cs
  rw [h] at hle
  simp only [List.length_cons] at hle
  omega

/-- What follows three members and the closing `>>` is less than what the first member was read
from. -/
theorem length_of_members {inner r1 r2 r3 r4 : List Char} (h1 : r1.length < inner.length)
    (h2 : r2.length < r1.length) (h3 : r3.length < r2.length) (hc : close? r3 = .ok r4) :
    r4.length < inner.length :=
  Nat.lt_trans (length_of_close? hc) (Nat.lt_trans h3 (Nat.lt_trans h2 h1))

/-- A term that is no quoted triple leaves less than the text, white space before it counted. -/
theorem length_of_start {cs start rest : List Char} {t : Term} (h : skipBlanks cs = start)
    (hs : simpleTerm start = .ok (t, rest)) : rest.length < cs.length :=
  Nat.lt_of_lt_of_le (length_of_simpleTerm hs) (h ▸ length_skipBlanks_le cs)

/-- A term with the white space before it, and what is left. -/
def term (cs : List Char) : Except ParseFault (Term × Shorter cs) :=
  match hcs : skipBlanks cs with
  | '<' :: '<' :: inner =>
    have h0 : inner.length < cs.length := length_of_open hcs
    match term inner with
    | .error e => .error e
    | .ok (s, ⟨r1, h1⟩) =>
      match term r1 with
      | .error e => .error e
      | .ok (p, ⟨r2, h2⟩) =>
        match term r2 with
        | .error e => .error e
        | .ok (o, ⟨r3, h3⟩) =>
          match hc : close? r3 with
          | .error e => .error e
          | .ok r4 =>
            match p with
            | .iri p =>
              .ok (.triple s p o, ⟨r4, Nat.lt_trans (length_of_members h1 h2 h3 hc) h0⟩)
            | _ => .error ⟨.triplePredicate, r4⟩
  | start =>
    match hs : simpleTerm start with
    | .error e => .error e
    | .ok (t, rest) => .ok (t, ⟨rest, length_of_start hcs hs⟩)
termination_by cs.length
decreasing_by
  · exact h0
  · exact Nat.lt_trans h1 h0
  · exact Nat.lt_trans h2 (Nat.lt_trans h1 h0)

/-- A term and what is left after it. -/
def readTerm (cs : List Char) : Except ParseFault (Term × List Char) :=
  (term cs).map fun (t, rest) => (t, rest.val)

end Parser

/-! ## Whole texts -/

/-- The term of a text that holds nothing else. -/
def Term.parse (source : String) : Except ParseFault Term :=
  match Parser.readTerm source.toList with
  | .error e => .error e
  | .ok (t, rest) =>
    match skipBlanks rest with
    | [] => .ok t
    | rest => .error ⟨.trailing, rest⟩

/-- Why a text is no statement. -/
inductive QuadFault where
  /-- A term of it goes wrong, or more follows it. -/
  | text (fault : ParseFault)
  /-- The predicate is no IRI. -/
  | predicate (t : Term)
  /-- The subject is a literal. -/
  | subject (t : Term)
  /-- The context is a literal or a quoted triple. -/
  | context
deriving DecidableEq

namespace Quad

/-- A context may be an IRI or a blank node. -/
def isContext : Term → Bool
  | .iri _ => true
  | .blank _ => true
  | _ => false

/-- The context that may follow the object, and what is left. -/
def readContext (cs : List Char) : Except ParseFault (Option Term × List Char) :=
  let cs := skipBlanks cs
  if cs = [] ∨ cs = ['.'] then .ok (none, cs)
  else (Parser.readTerm cs).map fun (t, rest) => (some t, rest)

/-- A text without the dot that may end it, and without the white space around the dot. -/
def skipDot (cs : List Char) : List Char :=
  match skipBlanks cs with
  | '.' :: rest => skipBlanks rest
  | rest => skipBlanks rest

/-- The terms of a statement, before they are checked. -/
def readTerms (cs : List Char) : Except ParseFault Quad := do
  let (s, cs) ← Parser.readTerm cs
  let (p, cs) ← Parser.readTerm cs
  let (o, cs) ← Parser.readTerm cs
  let (c, cs) ← readContext cs
  match skipDot cs with
  | [] => return ⟨s, p, o, c⟩
  | rest => throw ⟨.trailing, rest⟩

/-- The predicate must be an IRI, the subject a resource, the context an IRI or a blank node. -/
def check (q : Quad) : Except QuadFault Quad :=
  if q.predicate.iri? = none then .error (.predicate q.predicate)
  else if !q.subject.isResource then .error (.subject q.subject)
  else if !(q.context.all isContext) then .error .context
  else .ok q

/-- The statement of a text.  The dot at its end may be left out. -/
def parse (source : String) : Except QuadFault Quad :=
  match readTerms source.toList with
  | .error e => .error (.text e)
  | .ok q => check q

end Quad

end RdfIndex
