import RdfIndex.Proofs.Results
import RdfIndex.Proofs.Term.Tokens

/-!
# How labels are spelled

Between its quotes a label is spelled character by character (`Body`).  A character is spelled as
itself, as a backslash and a letter, or as a backslash, a `u` or `U`, and the four or eight
hexadecimal digits of its code point (`Spells`).

The reader takes one more spelling: a plus sign may stand in the place of the first hexadecimal
digit (`Takes`).  A text after an opening quote is accepted if and only if it starts with a body of
such spellings and the closing quote, and the label is what is spelled (`literal_eq_ok_iff`).  So
`\u+041` is read as `A`, though it spells nothing (`labelBody_plus`).
-/

namespace RdfIndex

namespace CodePoint

/-! ## Hexadecimal numbers -/

def lowerDigits : List Char :=
  ['0', '1', '2', '3', '4', '5', '6', '7', '8', '9', 'a', 'b', 'c', 'd', 'e', 'f']

def upperDigits : List Char :=
  ['0', '1', '2', '3', '4', '5', '6', '7', '8', '9', 'A', 'B', 'C', 'D', 'E', 'F']

/-- A hexadecimal digit and its value. -/
def IsHexDigit (c : Char) (v : Nat) : Prop := lowerDigits[v]? = some c ∨ upperDigits[v]? = some c

/-- Hexadecimal digits and the number that they write. -/
inductive Hex : List Char → Nat → Prop
  | nil : Hex [] 0
  | concat {ds : List Char} {n : Nat} {d : Char} {v : Nat} :
      Hex ds n → IsHexDigit d v → Hex (ds ++ [d]) (n * 16 + v)

/-- Hexadecimal digits are characters of ASCII. -/
theorem toNat_of_hexValue? {c : Char} {v : Nat} (h : hexValue? c = some v) : c.toNat < 0x80 := by
  have hle : ∀ d : Char, c ≤ d → c.toNat ≤ d.toNat := fun d hd => UInt32.le_iff_toNat_le.1 hd
  rw [hexValue?] at h
  split at h
  · next hc => exact Nat.lt_of_le_of_lt (hle '9' hc.2) (by decide)
  split at h
  · next hc => exact Nat.lt_of_le_of_lt (hle 'f' hc.2) (by decide)
  split at h
  · next hc => exact Nat.lt_of_le_of_lt (hle 'F' hc.2) (by decide)
  · cases h

theorem hexValue?_eq_some_iff {c : Char} {v : Nat} : hexValue? c = some v ↔ IsHexDigit c v := by
  constructor
  · intro h
    have hall : ∀ n < 0x80, ∀ v ∈ hexValue? (Char.ofNat n),
        lowerDigits[v]? = some (Char.ofNat n) ∨ upperDigits[v]? = some (Char.ofNat n) := by decide
    have hc := hall c.toNat (toNat_of_hexValue? h)
    rw [Char.ofNat_toNat] at hc
    exact hc v h
  · have hlower : ∀ p ∈ lowerDigits.zipIdx, hexValue? p.1 = some p.2 := by decide
    have hupper : ∀ p ∈ upperDigits.zipIdx, hexValue? p.1 = some p.2 := by decide
    rintro (h | h)
    · exact hlower (c, v) (List.mk_mem_zipIdx_iff_getElem?.2 h)
    · exact hupper (c, v) (List.mk_mem_zipIdx_iff_getElem?.2 h)

theorem hex_nil_iff {n : Nat} : Hex [] n ↔ n = 0 := by
  constructor
  · intro h
    generalize hds : ([] : List Char) = ds at h
    cases h with
    | nil => rfl
    | concat _ _ =>
      exact absurd hds.symm (List.append_ne_nil_of_right_ne_nil _ (List.cons_ne_nil _ _))
  · rintro rfl
    exact .nil

theorem hex_concat_iff {ds : List Char} {d : Char} {n : Nat} :
    Hex (ds ++ [d]) n ↔ ∃ m v, Hex ds m ∧ IsHexDigit d v ∧ n = m * 16 + v := by
  constructor
  · intro h
    generalize hcs : ds ++ [d] = cs at h
    cases h with
    | nil => exact absurd hcs (List.append_ne_nil_of_right_ne_nil _ (List.cons_ne_nil _ _))
    | concat hds hd =>
      obtain ⟨rfl, hlast⟩ := List.append_inj' hcs rfl
      cases hlast
      exact ⟨_, _, hds, hd, rfl⟩
  · rintro ⟨m, v, hds, hd, rfl⟩
    exact .concat hds hd

theorem foldlM_concat_eq_some_iff {ds : List Char} {d : Char} {n : Nat}
    {step : Nat → Char → Option Nat} : (ds ++ [d]).foldlM step 0 = some n
      ↔ ∃ m, ds.foldlM step 0 = some m ∧ step m d = some n := by
  rw [List.foldlM_append, Option.bind_eq_bind, Option.bind_eq_some_iff]
  refine exists_congr fun m => and_congr_right fun _ => ?_
  rw [List.foldlM_cons]
  cases step m d <;> rfl

/-- A number grows at its end, as its digits are gone through from the left. -/
theorem hexNumber?_eq_some_iff {ds : List Char} {n : Nat} :
    hexNumber? ds = some n ↔ ds ≠ [] ∧ Hex ds n := by
  have hfold : ∀ n, ds.foldlM (fun n c => (hexValue? c).map fun d => n * 16 + d) 0 = some n
      ↔ Hex ds n := by
    induction ds using List.reverseRecOn with
    | nil => exact fun n => ⟨fun h => hex_nil_iff.2 (Option.some.inj h).symm,
        fun h => congrArg some (hex_nil_iff.1 h).symm⟩
    | append_singleton ds d ih =>
      intro n
      simp only [foldlM_concat_eq_some_iff, hex_concat_iff, ih, Option.map_eq_some_iff,
        hexValue?_eq_some_iff]
      constructor
      · rintro ⟨m, hds, v, hd, rfl⟩
        exact ⟨m, v, hds, hd, rfl⟩
      · rintro ⟨m, v, hds, hd, rfl⟩
        exact ⟨m, hds, v, hd, rfl⟩
  rw [hexNumber?]
  split
  · next hnil => exact ⟨nofun, fun h => absurd hnil h.1⟩
  · next hne =>
    rw [hfold]
    exact ⟨fun h => ⟨hne, h⟩, fun h => h.2⟩

theorem Hex.isHexDigit {ds : List Char} {n : Nat} (h : Hex ds n) :
    ∀ d ∈ ds, ∃ v, IsHexDigit d v := by
  induction h with
  | nil => exact nofun
  | concat _ hd ih =>
    exact List.forall_mem_append.2 ⟨ih, List.forall_mem_singleton.2 ⟨_, hd⟩⟩

/-- A plus sign is no digit. -/
theorem not_hex_plus {ds : List Char} {n : Nat} : ¬ Hex ('+' :: ds) n := by
  intro h
  obtain ⟨v, hv⟩ := h.isHexDigit '+' List.mem_cons_self
  cases hexValue?_eq_some_iff.2 hv

theorem char?_eq_some_iff {n : Nat} {c : Char} : char? n = some c ↔ c.toNat = n := by
  by_cases h : n.isValidChar
  · have hnat : (Char.ofNatAux n h).toNat = n := rfl
    rw [char?, dif_pos h, Option.some.injEq, ← Char.toNat_inj, hnat, eq_comm]
  · rw [char?, dif_neg h]
    constructor
    · intro hnone
      cases hnone
    · rintro rfl
      exact absurd c.valid h

/-- Digits name the character whose code point they write. -/
theorem hexNumber?_bind_char?_iff {ds : List Char} {c : Char} (hne : ds ≠ []) :
    (hexNumber? ds).bind char? = some c ↔ Hex ds c.toNat := by
  rw [Option.bind_eq_some_iff]
  constructor
  · rintro ⟨n, hn, hc⟩
    rw [char?_eq_some_iff.1 hc]
    exact (hexNumber?_eq_some_iff.1 hn).2
  · exact fun h => ⟨c.toNat, hexNumber?_eq_some_iff.2 ⟨hne, h⟩, char?_eq_some_iff.2 rfl⟩

end CodePoint

namespace Parser

/-! ## Spellings -/

/-- What the letter after a backslash stands for. -/
def shortEscapes : List (Char × Char) :=
  [('n', '\n'), ('r', '\r'), ('t', '\t'), ('"', '"'), ('\'', '\''), ('\\', '\\')]

/-- The letters of escapes by code point, and how many digits follow them. -/
def codeEscapes : List (Char × Nat) := [('u', 4), ('U', 8)]

/-- How a character of a label may be written between quotes. -/
inductive Spells : List Char → Char → Prop
  | plain {c : Char} (hquote : c ≠ '"') (hescape : c ≠ '\\') : Spells [c] c
  | short {e c : Char} (h : (e, c) ∈ shortEscapes) : Spells ['\\', e] c
  | code {letter c : Char} {width : Nat} {ds : List Char} (h : (letter, width) ∈ codeEscapes)
      (hlength : ds.length = width) (hnumber : CodePoint.Hex ds c.toNat) :
      Spells ('\\' :: letter :: ds) c

/-- What the reader takes for a character of a label. -/
inductive Takes : List Char → Char → Prop
  | spelled {cs : List Char} {c : Char} (h : Spells cs c) : Takes cs c
  | plus {letter c : Char} {width : Nat} {ds : List Char} (h : (letter, width) ∈ codeEscapes)
      (hlength : ds.length + 1 = width) (hnumber : CodePoint.Hex ds c.toNat) :
      Takes ('\\' :: letter :: '+' :: ds) c

/-- A text that starts with the characters of a label, each written in one of the given ways, and
the closing quote.  The label is what the characters are, and the rest is what follows the quote. -/
inductive Body (writes : List Char → Char → Prop) : List Char → List Char → List Char → Prop
  | close {rest : List Char} : Body writes ('"' :: rest) [] rest
  | char {spelling cs label rest : List Char} {c : Char} :
      writes spelling c → Body writes cs label rest → Body writes (spelling ++ cs) (c :: label) rest

variable {cs ds rest : List Char} {c e : Char} {width : Nat}

theorem shortEscape?_eq_some_iff : shortEscape? e = some c ↔ (e, c) ∈ shortEscapes := by
  constructor
  · intro h
    rw [shortEscape?.eq_def] at h
    split at h <;> cases h <;> decide
  · intro h
    have hall : ∀ p ∈ shortEscapes, shortEscape? p.1 = some p.2 := by decide
    exact hall (e, c) h

theorem codeWidth?_eq_some_iff : codeWidth? e = some width ↔ (e, width) ∈ codeEscapes := by
  constructor
  · intro h
    rw [codeWidth?.eq_def] at h
    split at h <;> cases h <;> decide
  · intro h
    have hall : ∀ p ∈ codeEscapes, codeWidth? p.1 = some p.2 := by decide
    exact hall (e, width) h

/-- What is read after the letter of an escape by code point: digits, or a plus sign and digits in
the same number of characters. -/
theorem codeEscape?_eq_some_iff (hwidth : 2 ≤ width) : codeEscape? width ds = some c
    ↔ ds.length = width
      ∧ (CodePoint.Hex ds c.toNat ∨ ∃ ds', ds = '+' :: ds' ∧ CodePoint.Hex ds' c.toNat) := by
  rw [codeEscape?.eq_def, Option.ite_none_right_eq_some]
  refine and_congr_right fun hlength => ?_
  simp only
  split
  · next ds' =>
    have hne : ds' ≠ [] := by
      rintro rfl
      rw [List.length_singleton] at hlength
      omega
    rw [CodePoint.hexNumber?_bind_char?_iff hne]
    constructor
    · exact fun h => .inr ⟨ds', rfl, h⟩
    · rintro (h | ⟨_, heq, h⟩)
      · exact absurd h CodePoint.not_hex_plus
      · cases heq
        exact h
  · next hplus =>
    have hne : ds ≠ [] := List.ne_nil_of_length_pos (by omega)
    rw [CodePoint.hexNumber?_bind_char?_iff hne]
    constructor
    · exact .inl
    · rintro (h | ⟨ds', heq, _⟩)
      · exact h
      · exact absurd heq (hplus ds')

/-! ## Steps -/

theorem labelStep_eq_close_iff : labelStep cs = .close rest ↔ cs = '"' :: rest := by
  constructor
  · intro h
    rw [labelStep.eq_def] at h
    split at h
    · cases h
    · cases h
      rfl
    · cases h
    · split at h
      · cases h
      · split at h <;> cases h
      · cases h
    · cases h
  · rintro rfl
    rfl

theorem width_of_mem (h : (e, width) ∈ codeEscapes) : 2 ≤ width ∧ shortEscape? e = none := by
  have hall : ∀ p ∈ codeEscapes, 2 ≤ p.2 ∧ shortEscape? p.1 = none := by decide
  exact hall _ h

/-- A backslash and what is after it. -/
theorem labelStep_escape (e : Char) (cs : List Char) : labelStep ('\\' :: e :: cs)
    = match shortEscape? e, codeWidth? e with
      | some c, _ => .char c cs
      | none, some width =>
        match codeEscape? width (cs.take width) with
        | some c => .char c (cs.drop width)
        | none => .fault .invalidUnicodeEscape
      | none, none => .fault .unknownEscape := rfl

theorem labelStep_short (h : (e, c) ∈ shortEscapes) :
    labelStep ('\\' :: e :: rest) = .char c rest := by
  rw [labelStep_escape, shortEscape?_eq_some_iff.2 h]

theorem labelStep_code (h : (e, width) ∈ codeEscapes) (hds : codeEscape? width ds = some c)
    (hlength : ds.length = width) : labelStep ('\\' :: e :: (ds ++ rest)) = .char c rest := by
  subst hlength
  rw [labelStep_escape, (width_of_mem h).2, codeWidth?_eq_some_iff.2 h]
  simp only [List.take_left, List.drop_left, hds]

/-- A step takes a character as it is spelled. -/
theorem labelStep_eq_char_iff :
    labelStep cs = .char c rest ↔ ∃ spelling, Takes spelling c ∧ cs = spelling ++ rest := by
  constructor
  · intro h
    rw [labelStep.eq_def] at h
    split at h
    · cases h
    · cases h
    · cases h
    · next e cs =>
      split at h
      · next hshort =>
        cases h
        exact ⟨['\\', e], .spelled (.short (shortEscape?_eq_some_iff.1 hshort)), rfl⟩
      · next width _ hcode =>
        split at h
        · next hread =>
          cases h
          have hletter := codeWidth?_eq_some_iff.1 hcode
          obtain ⟨hlength, hnumber⟩ :=
            (codeEscape?_eq_some_iff (width_of_mem hletter).1).1 hread
          refine ⟨'\\' :: e :: cs.take width, ?_, ?_⟩
          · rcases hnumber with hnumber | ⟨ds, hplus, hnumber⟩
            · exact .spelled (.code hletter hlength hnumber)
            · rw [hplus] at hlength ⊢
              exact .plus hletter hlength hnumber
          · rw [List.cons_append, List.cons_append, List.take_append_drop]
        · cases h
      · cases h
    · next d cs hquote hdangling hescape =>
      cases h
      refine ⟨[c], .spelled (.plain hquote fun hc => ?_), rfl⟩
      cases rest with
      | nil => exact hdangling hc rfl
      | cons e rest => exact hescape e rest hc rfl
  · rintro ⟨spelling, htakes, rfl⟩
    cases htakes with
    | spelled h =>
      cases h with
      | plain hquote hescape => exact labelStep_plain hquote hescape rest
      | short h => exact labelStep_short h
      | code h hlength hnumber =>
        exact labelStep_code h
          ((codeEscape?_eq_some_iff (width_of_mem h).1).2 ⟨hlength, .inl hnumber⟩) hlength
    | plus h hlength hnumber =>
      exact labelStep_code h
        ((codeEscape?_eq_some_iff (width_of_mem h).1).2 ⟨hlength, .inr ⟨_, rfl, hnumber⟩⟩) hlength

/-! ## Whole labels -/

theorem labelBody_eq_ok_iff {done label : List Char} : labelBody done cs = .ok (label, rest)
    ↔ ∃ chars, Body Takes cs chars rest ∧ label = done.reverse ++ chars := by
  constructor
  · intro h
    fun_induction labelBody done cs with
    | case1 => cases h
    | case2 done cs r hs =>
      cases h
      rw [labelStep_eq_close_iff.1 hs]
      exact ⟨[], .close, (List.append_nil _).symm⟩
    | case3 done cs c r hs _ ih =>
      obtain ⟨chars, hbody, rfl⟩ := ih h
      obtain ⟨spelling, htakes, rfl⟩ := labelStep_eq_char_iff.1 hs
      exact ⟨c :: chars, .char htakes hbody, by simp⟩
  · rintro ⟨chars, hbody, rfl⟩
    induction hbody generalizing done with
    | close => rw [labelBody_of_close (labelStep_eq_close_iff.2 rfl), List.append_nil]
    | char htakes _ ih =>
      rw [labelBody_of_char (labelStep_eq_char_iff.2 ⟨_, htakes, rfl⟩), ih, List.reverse_cons,
        List.append_assoc, List.singleton_append]

/-- What follows the closing quote does not change the label. -/
theorem label_of_literalTail {label : String} {l : Literal}
    (h : literalTail label cs = .ok (l, rest)) : l.label = label := by
  rw [literalTail.eq_def] at h
  split at h
  · split at h
    · cases h
    · cases h
      rw [Literal.lang]
      split <;> rfl
  · obtain ⟨_, _, heq⟩ := ok_of_map h
    cases heq
    rfl
  · cases h
  · cases h
    rfl

/-- What stands after an opening quote is read if and only if it is a body and a closing quote, as
the reader takes its characters, and the label is what they are.  Such a text is a literal if what
follows the quote is the end of one. -/
theorem literal_eq_ok_iff (cs : List Char) :
    (∀ label rest, labelBody [] cs = .ok (label, rest) ↔ Body Takes cs label rest)
    ∧ ∀ l rest, literal cs = .ok (l, rest)
      ↔ ∃ tail, Body Takes cs l.label.toList tail ∧ literalTail l.label tail = .ok (l, rest) := by
  have hbody : ∀ label rest, labelBody [] cs = .ok (label, rest) ↔ Body Takes cs label rest := by
    intro label rest
    rw [labelBody_eq_ok_iff]
    simp only [List.reverse_nil, List.nil_append, exists_eq_right']
  refine ⟨hbody, fun l rest => ?_⟩
  rw [literal]
  constructor
  · intro h
    split at h
    · cases h
    · next label tail hread =>
      obtain rfl : label = l.label.toList := by
        rw [label_of_literalTail h, String.toList_ofList]
      rw [String.ofList_toList] at h
      exact ⟨tail, (hbody _ _).1 hread, h⟩
  · rintro ⟨tail, hread, h⟩
    rw [(hbody _ _).2 hread]
    simp only [String.ofList_toList, h]

/-- A plus sign and three digits name a character, though four digits would have to. -/
theorem labelBody_plus : labelBody [] ['\\', 'u', '+', '0', '4', '1', '"'] = .ok (['A'], [])
    ∧ ¬ ∃ label rest, Body Spells ['\\', 'u', '+', '0', '4', '1', '"'] label rest := by
  refine ⟨ok_of_toOption (by decide +kernel), ?_⟩
  rintro ⟨label, rest, h⟩
  generalize hcs : ['\\', 'u', '+', '0', '4', '1', '"'] = cs at h
  cases h with
  | close => cases hcs
  | char hspells _ =>
    cases hspells with
    | plain _ hescape => exact hescape (List.cons.inj hcs).1.symm
    | short hmem =>
      obtain ⟨rfl, _⟩ := List.cons.inj (List.cons.inj hcs).2
      cases shortEscape?_eq_some_iff.2 hmem
    | @code _ _ _ ds hmem hlength hnumber =>
      have hds := (List.cons.inj (List.cons.inj hcs).2).2
      cases ds with
      | nil =>
        have hwidth := (width_of_mem hmem).1
        rw [← hlength] at hwidth
        cases hwidth
      | cons d ds =>
        obtain ⟨rfl, _⟩ := List.cons.inj hds
        exact CodePoint.not_hex_plus hnumber

end Parser

end RdfIndex
