import Mathlib.Computability.Language
import RdfIndex.Proofs.Number.Floating
import RdfIndex.Term.Shorthand

/-!
# Bare literals as languages

A token that stands for a literal without quotes is a word of one of four languages, one for each
datatype (`Form.words`): `true` and `false`, and, after an optional sign, `[0-9]+` for integers,
`[0-9]*\.[0-9]+` for decimals and `([0-9]+\.[0-9]*|\.[0-9]+|[0-9]+)[eE][+-]?[0-9]+` for doubles.
The literal of a token is that of the form whose word it is, and no other token has one
(`literal?_eq_some_iff`).

The reader asks for one form after the other.  That the order does not matter is seen from the
characters: an integer has no point and no mark of an exponent, a decimal has a point and no mark,
a double has a mark.
-/

namespace RdfIndex.Shorthand

open Computability

/-! ## The languages -/

/-- `[0-9]`. -/
def digit : Language Char := {w | ∃ c, Numeral.isDigit c = true ∧ w = [c]}

/-- `[0-9]+`. -/
def numeral : Language Char := digit * digit∗

/-- `[+-]?`. -/
def sign : Language Char := {[], ['+'], ['-']}

def point : Language Char := {['.']}

/-- `[eE][+-]?[0-9]+`. -/
def exponent : Language Char := {['e'], ['E']} * (sign * numeral)

/-- `[0-9]+\.[0-9]*|\.[0-9]+|[0-9]+`. -/
def significand : Language Char := numeral * (point * digit∗) + point * numeral + numeral

/-- The forms of bare literals. -/
inductive Form where
  | boolean
  | integer
  | decimal
  | double
deriving DecidableEq, Repr

namespace Form

/-- The tokens of a form. -/
def words : Form → Language Char
  | boolean => {['t', 'r', 'u', 'e'], ['f', 'a', 'l', 's', 'e']}
  | integer => sign * numeral
  | decimal => sign * (digit∗ * (point * numeral))
  | double => sign * (significand * exponent)

def datatype : Form → String
  | boolean => Xsd.boolean
  | integer => Xsd.integer
  | decimal => Xsd.decimal
  | double => Xsd.double

end Form

variable {w token : List Char}

/-! ## Words by their characters -/

theorem mem_digits_iff : w ∈ digit∗ ↔ w.all Numeral.isDigit = true := by
  rw [Language.mem_kstar, List.all_eq_true]
  constructor
  · rintro ⟨ws, rfl, hws⟩ c hc
    obtain ⟨v, hv, hc⟩ := List.mem_flatten.1 hc
    obtain ⟨d, hd, rfl⟩ := hws v hv
    exact List.mem_singleton.1 hc ▸ hd
  · intro hall
    refine ⟨w.map fun c => [c], (List.flatMap_singleton' w).symm, ?_⟩
    intro v hv
    obtain ⟨c, hc, rfl⟩ := List.mem_map.1 hv
    exact ⟨c, hall c hc, rfl⟩

theorem mem_numeral_iff : w ∈ numeral ↔ w ≠ [] ∧ w.all Numeral.isDigit = true := by
  rw [numeral, Language.mem_mul]
  constructor
  · rintro ⟨_, ⟨c, hc, rfl⟩, ds, hds, rfl⟩
    rw [mem_digits_iff] at hds
    exact ⟨List.cons_ne_nil c ds, by simp [hc, hds]⟩
  · rintro ⟨hne, hall⟩
    obtain ⟨c, ds, rfl⟩ := List.exists_cons_of_ne_nil hne
    rw [List.all_cons, Bool.and_eq_true] at hall
    exact ⟨[c], ⟨c, hall.1, rfl⟩, ds, mem_digits_iff.2 hall.2, rfl⟩

theorem mem_point_mul_iff {l : Language Char} : w ∈ point * l ↔ ∃ v ∈ l, w = '.' :: v := by
  rw [Language.mem_mul]
  constructor
  · rintro ⟨_, rfl, v, hv, rfl⟩
    exact ⟨v, hv, rfl⟩
  · rintro ⟨v, hv, rfl⟩
    exact ⟨['.'], rfl, v, hv, rfl⟩

/-- The words of decimals without their sign. -/
theorem mem_fixed_iff : w ∈ digit∗ * (point * numeral) ↔ ∃ whole fraction,
    w = whole ++ '.' :: fraction ∧ whole.all Numeral.isDigit = true ∧ fraction ≠ []
      ∧ fraction.all Numeral.isDigit = true := by
  rw [Language.mem_mul]
  constructor
  · rintro ⟨whole, hwhole, rest, hrest, rfl⟩
    obtain ⟨fraction, hfraction, rfl⟩ := mem_point_mul_iff.1 hrest
    exact ⟨whole, fraction, rfl, mem_digits_iff.1 hwhole, mem_numeral_iff.1 hfraction⟩
  · rintro ⟨whole, fraction, rfl, hwhole, hfraction⟩
    exact ⟨whole, mem_digits_iff.2 hwhole, _,
      mem_point_mul_iff.2 ⟨fraction, mem_numeral_iff.2 hfraction, rfl⟩, rfl⟩

/-- A significand has a whole part or a fraction, and a point if it has a fraction. -/
theorem mem_significand_iff : w ∈ significand ↔
    (∃ whole fraction, w = whole ++ '.' :: fraction ∧ whole.all Numeral.isDigit = true
      ∧ fraction.all Numeral.isDigit = true ∧ ¬ (whole = [] ∧ fraction = []))
    ∨ w ≠ [] ∧ w.all Numeral.isDigit = true := by
  rw [significand, Language.mem_add, Language.mem_add, mem_numeral_iff, Language.mem_mul]
  constructor
  · rintro ((⟨whole, hwhole, rest, hrest, rfl⟩ | h) | h)
    · obtain ⟨fraction, hfraction, rfl⟩ := mem_point_mul_iff.1 hrest
      obtain ⟨hne, hwhole⟩ := mem_numeral_iff.1 hwhole
      exact .inl ⟨whole, fraction, rfl, hwhole, mem_digits_iff.1 hfraction, fun h => hne h.1⟩
    · obtain ⟨fraction, hfraction, rfl⟩ := mem_point_mul_iff.1 h
      obtain ⟨hne, hfraction⟩ := mem_numeral_iff.1 hfraction
      exact .inl ⟨[], fraction, rfl, rfl, hfraction, fun h => hne h.2⟩
    · exact .inr h
  · rintro (⟨whole, fraction, rfl, hwhole, hfraction, hne⟩ | h)
    · by_cases hnil : whole = []
      · subst hnil
        have hfraction : fraction ∈ numeral := mem_numeral_iff.2 ⟨fun h => hne ⟨rfl, h⟩, hfraction⟩
        exact .inl (.inr (mem_point_mul_iff.2 ⟨fraction, hfraction, rfl⟩))
      · exact .inl (.inl ⟨whole, mem_numeral_iff.2 ⟨hnil, hwhole⟩, _,
          mem_point_mul_iff.2 ⟨fraction, mem_digits_iff.2 hfraction, rfl⟩, rfl⟩)
    · exact .inr h

/-! ## Signs -/

/-- A word that a number can have after its sign starts with a digit or a point. -/
def StartsNumber (w : List Char) : Prop :=
  ∃ c cs, w = c :: cs ∧ (Numeral.isDigit c || c == '.') = true

theorem startsNumber_digits (hne : w ≠ []) (hall : w.all Numeral.isDigit = true)
    (cs : List Char) : StartsNumber (w ++ cs) := by
  obtain ⟨d, ds, rfl⟩ := List.exists_cons_of_ne_nil hne
  rw [List.all_cons, Bool.and_eq_true] at hall
  exact ⟨d, ds ++ cs, rfl, by rw [hall.1, Bool.true_or]⟩

theorem startsNumber_parts {whole : List Char} (hall : whole.all Numeral.isDigit = true)
    (cs : List Char) : StartsNumber (whole ++ '.' :: cs) := by
  by_cases hnil : whole = []
  · subst hnil
    exact ⟨'.', cs, rfl, by decide⟩
  · exact startsNumber_digits hnil hall _

theorem startsNumber_of_mem_numeral (h : w ∈ numeral) : StartsNumber w := by
  obtain ⟨hne, hall⟩ := mem_numeral_iff.1 h
  have hstarts := startsNumber_digits hne hall []
  rwa [List.append_nil] at hstarts

theorem startsNumber_of_mem_fixed (h : w ∈ digit∗ * (point * numeral)) : StartsNumber w := by
  obtain ⟨whole, fraction, rfl, hwhole, _⟩ := mem_fixed_iff.1 h
  exact startsNumber_parts hwhole fraction

theorem startsNumber_of_mem_floating (h : w ∈ significand * exponent) : StartsNumber w := by
  obtain ⟨v, hv, e, _, rfl⟩ := Language.mem_mul.1 h
  rcases mem_significand_iff.1 hv with ⟨whole, fraction, rfl, hwhole, _⟩ | ⟨hne, hall⟩
  · rw [List.append_assoc]
    exact startsNumber_parts hwhole (fraction ++ e)
  · exact startsNumber_digits hne hall e

/-- A number that starts with a digit or a point has no sign to take off. -/
theorem unsign_of_startsNumber (h : StartsNumber w) : unsign w = w := by
  obtain ⟨c, cs, rfl, hc⟩ := h
  rw [unsign.eq_def]
  split
  · next heq =>
    cases heq
    exact absurd hc (by decide)
  · next heq =>
    cases heq
    exact absurd hc (by decide)
  · rfl

/-- A word after an optional sign is the word that the token is without its sign. -/
theorem mem_sign_mul_iff {l : Language Char} (h : ∀ w ∈ l, StartsNumber w) :
    token ∈ sign * l ↔ unsign token ∈ l := by
  rw [Language.mem_mul]
  constructor
  · rintro ⟨s, hs, w, hw, rfl⟩
    rcases hs with rfl | rfl | rfl
    · rwa [List.nil_append, unsign_of_startsNumber (h w hw)]
    · exact hw
    · exact hw
  · intro hmem
    rw [unsign.eq_def] at hmem
    split at hmem
    · exact ⟨['+'], .inr (.inl rfl), _, hmem, rfl⟩
    · exact ⟨['-'], .inr (.inr rfl), _, hmem, rfl⟩
    · exact ⟨[], .inl rfl, _, hmem, rfl⟩

theorem splitSign_snd (cs : List Char) : (Floating.splitSign cs).2 = unsign cs := by
  rw [Floating.splitSign.eq_def, unsign.eq_def]
  split <;> split <;> simp_all

/-! ## Numerals with an exponent -/

theorem isSome_read?_iff {ds : List Char} :
    (Numeral.read? ds).isSome = true ↔ ds ∈ numeral := by
  rw [Numeral.read?, mem_numeral_iff]
  split
  · next h => exact ⟨fun _ => h, fun _ => rfl⟩
  · next h => exact ⟨fun hnone => (by cases hnone), fun hds => absurd hds h⟩

theorem mem_exponent_iff : w ∈ exponent ↔
    ∃ c cs, w = c :: cs ∧ (c = 'e' ∨ c = 'E') ∧ unsign cs ∈ numeral := by
  rw [exponent, Language.mem_mul]
  constructor
  · rintro ⟨_, hmark, cs, hcs, rfl⟩
    rw [mem_sign_mul_iff fun _ => startsNumber_of_mem_numeral] at hcs
    rcases hmark with rfl | rfl
    · exact ⟨'e', cs, rfl, .inl rfl, hcs⟩
    · exact ⟨'E', cs, rfl, .inr rfl, hcs⟩
  · rintro ⟨c, cs, rfl, hmark, hcs⟩
    rw [← mem_sign_mul_iff fun _ => startsNumber_of_mem_numeral] at hcs
    refine ⟨[c], ?_, cs, hcs, rfl⟩
    rcases hmark with rfl | rfl
    · exact .inl rfl
    · exact .inr rfl

theorem isSome_readExponent?_iff {cs : List Char} :
    (Floating.readExponent? cs).isSome = true ↔ cs = [] ∨ cs ∈ exponent := by
  rw [mem_exponent_iff]
  cases cs with
  | nil => exact ⟨fun _ => .inl rfl, fun _ => rfl⟩
  | cons c cs =>
    rw [Floating.readExponent?]
    split
    · next hmark =>
      have hsome : ∀ x : Option Nat, (do let n ← x; pure (n : Int)).isSome = x.isSome := fun x => by
        cases x <;> rfl
      rw [Option.isSome_map, splitSign_snd, hsome, isSome_read?_iff]
      constructor
      · exact fun h => .inr ⟨c, cs, rfl, hmark, h⟩
      · rintro (h | ⟨_, _, heq, _, h⟩)
        · cases h
        · cases heq
          exact h
    · next hmark =>
      constructor
      · intro h
        cases h
      · rintro (h | ⟨_, _, heq, hmark', _⟩)
        · cases h
        · cases heq
          exact absurd hmark' hmark

/-- A text that is no part of the digits or the point in front of it. -/
def StopsNumeral (cs : List Char) : Prop :=
  cs.head?.all (!Numeral.isDigit ·) = true ∧ ∀ rest, cs ≠ '.' :: rest

theorem stopsNumeral_of_exponent {cs : List Char} (h : cs = [] ∨ cs ∈ exponent) :
    StopsNumeral cs := by
  rcases h with rfl | h
  · exact ⟨rfl, nofun⟩
  · obtain ⟨c, cs, rfl, rfl | rfl, _⟩ := mem_exponent_iff.1 h
    · exact ⟨rfl, fun rest heq => by cases heq⟩
    · exact ⟨rfl, fun rest heq => by cases heq⟩

/-- A numeral with a point is read if it has digits and what follows them is read. -/
theorem isSome_readScientific?_point {whole fraction rest : List Char}
    (h : unsign token = whole ++ '.' :: (fraction ++ rest))
    (hwhole : whole.all Numeral.isDigit = true) (hfraction : fraction.all Numeral.isDigit = true)
    (hrest : rest.head?.all (!Numeral.isDigit ·) = true) :
    (Floating.readScientific? token).isSome = true
      ↔ ¬ (whole = [] ∧ fraction = []) ∧ (Floating.readExponent? rest).isSome = true := by
  obtain ⟨htake, hdrop⟩ := Floating.takeWhile_isDigit hwhole ('.' :: (fraction ++ rest)) rfl
  obtain ⟨htake', hdrop'⟩ := Floating.takeWhile_isDigit hfraction rest hrest
  rw [Floating.readScientific?]
  simp only [splitSign_snd, h, htake, hdrop, htake', hdrop']
  by_cases hne : whole = [] ∧ fraction = []
  · rw [if_pos hne]
    exact ⟨fun h => (by cases h), fun h => absurd hne h.1⟩
  · rw [if_neg hne, Option.isSome_map]
    exact ⟨fun h => ⟨hne, h⟩, fun h => h.2⟩

/-- The same of a numeral without a point. -/
theorem isSome_readScientific?_whole {whole rest : List Char} (h : unsign token = whole ++ rest)
    (hwhole : whole.all Numeral.isDigit = true) (hrest : StopsNumeral rest) :
    (Floating.readScientific? token).isSome = true
      ↔ whole ≠ [] ∧ (Floating.readExponent? rest).isSome = true := by
  obtain ⟨htake, hdrop⟩ := Floating.takeWhile_isDigit hwhole rest hrest.1
  rw [Floating.readScientific?]
  simp only [splitSign_snd, h, htake, hdrop]
  split
  · next cs => exact absurd rfl (hrest.2 cs)
  · by_cases hne : whole = []
    · rw [if_pos ⟨hne, rfl⟩]
      exact ⟨fun h => (by cases h), fun h => absurd hne h.1⟩
    · rw [if_neg fun h => hne h.1, Option.isSome_map]
      exact ⟨fun h => ⟨hne, h⟩, fun h => h.2⟩

/-- Digits are taken as far as they go. -/
theorem exists_digits_append (cs : List Char) : ∃ ds rest, cs = ds ++ rest
    ∧ ds.all Numeral.isDigit = true ∧ rest.head?.all (!Numeral.isDigit ·) = true := by
  refine ⟨cs.takeWhile Numeral.isDigit, cs.dropWhile Numeral.isDigit,
    List.takeWhile_append_dropWhile.symm, List.all_takeWhile, ?_⟩
  have hhead := List.head?_dropWhile_not Numeral.isDigit cs
  cases h : (cs.dropWhile Numeral.isDigit).head? with
  | none => rfl
  | some c =>
    rw [h] at hhead
    simp [hhead]

/-- A numeral is read if it is a significand, after which an exponent may stand. -/
theorem isSome_readScientific?_iff : (Floating.readScientific? token).isSome = true
    ↔ ∃ v rest, unsign token = v ++ rest ∧ v ∈ significand ∧ (rest = [] ∨ rest ∈ exponent) := by
  constructor
  · intro h
    obtain ⟨whole, after, hsplit, hwhole, hstop⟩ := exists_digits_append (unsign token)
    by_cases hpoint : ∃ cs, after = '.' :: cs
    · obtain ⟨cs, rfl⟩ := hpoint
      obtain ⟨fraction, rest, rfl, hfraction, hstop⟩ := exists_digits_append cs
      obtain ⟨hne, hread⟩ := (isSome_readScientific?_point hsplit hwhole hfraction hstop).1 h
      refine ⟨whole ++ '.' :: fraction, rest, ?_, ?_, isSome_readExponent?_iff.1 hread⟩
      · rw [hsplit, List.append_assoc, List.cons_append]
      · exact mem_significand_iff.2 (.inl ⟨whole, fraction, rfl, hwhole, hfraction, hne⟩)
    · have hstops : StopsNumeral after := ⟨hstop, fun cs heq => hpoint ⟨cs, heq⟩⟩
      obtain ⟨hne, hread⟩ := (isSome_readScientific?_whole hsplit hwhole hstops).1 h
      exact ⟨whole, after, hsplit, mem_significand_iff.2 (.inr ⟨hne, hwhole⟩),
        isSome_readExponent?_iff.1 hread⟩
  · rintro ⟨v, rest, htoken, hv, hrest⟩
    have hstops := stopsNumeral_of_exponent hrest
    have hread := isSome_readExponent?_iff.2 hrest
    rcases mem_significand_iff.1 hv with
      ⟨whole, fraction, rfl, hwhole, hfraction, hne⟩ | ⟨hne, hall⟩
    · rw [List.append_assoc, List.cons_append] at htoken
      exact (isSome_readScientific?_point htoken hwhole hfraction hstops.1).2 ⟨hne, hread⟩
    · exact (isSome_readScientific?_whole htoken hall hstops).2 ⟨hne, hread⟩

/-! ## Telling the forms apart -/

theorem not_mark_of_isDigit {c : Char} (h : (Numeral.isDigit c || c == '.') = true) :
    isExponentMark c = false := by
  rw [isExponentMark, Bool.or_eq_false_iff, beq_eq_false_iff_ne, beq_eq_false_iff_ne]
  constructor
  · rintro rfl
    exact absurd h (by decide)
  · rintro rfl
    exact absurd h (by decide)

theorem any_mark_digits {ds : List Char} (h : ds.all Numeral.isDigit = true) :
    ds.any isExponentMark = false := by
  rw [List.any_eq_false]
  intro c hc
  rw [not_mark_of_isDigit (by rw [List.all_eq_true.1 h c hc, Bool.true_or])]
  exact Bool.false_ne_true

theorem any_mark_parts {whole fraction : List Char} (hwhole : whole.all Numeral.isDigit = true)
    (hfraction : fraction.all Numeral.isDigit = true) :
    (whole ++ '.' :: fraction).any isExponentMark = false := by
  rw [List.any_append, List.any_cons, any_mark_digits hwhole, any_mark_digits hfraction]
  rfl

theorem any_mark_significand (h : w ∈ significand) : w.any isExponentMark = false := by
  rcases mem_significand_iff.1 h with ⟨whole, fraction, rfl, hwhole, hfraction, _⟩ | ⟨_, hall⟩
  · exact any_mark_parts hwhole hfraction
  · exact any_mark_digits hall

theorem any_mark_exponent (h : w ∈ exponent) : w.any isExponentMark = true := by
  obtain ⟨c, cs, rfl, rfl | rfl, _⟩ := mem_exponent_iff.1 h
  · rfl
  · rfl

/-- The words of doubles without their sign have a mark, and the reader takes them. -/
theorem mem_floating_iff : unsign token ∈ significand * exponent
    ↔ (unsign token).any isExponentMark = true
      ∧ (Floating.readScientific? token).isSome = true := by
  rw [isSome_readScientific?_iff, Language.mem_mul]
  constructor
  · rintro ⟨v, hv, e, he, htoken⟩
    refine ⟨?_, v, e, htoken.symm, hv, .inr he⟩
    rw [← htoken, List.any_append, any_mark_exponent he, Bool.or_true]
  · rintro ⟨hmark, v, rest, htoken, hv, rfl | hrest⟩
    · rw [htoken, List.append_nil, any_mark_significand hv] at hmark
      cases hmark
    · exact ⟨v, hv, rest, hrest, htoken.symm⟩

/-- A token is cut at its point as decimals are. -/
theorem splitPoint_eq_some_iff {cs whole fraction : List Char} (hne : fraction ≠ []) :
    Decimal.splitPoint cs = some (whole, fraction)
      ↔ cs.takeWhile (· != '.') = whole ∧ (cs.dropWhile (· != '.')).drop 1 = fraction := by
  rw [Decimal.splitPoint]
  split
  · next rest hdrop => rw [hdrop, Option.some.injEq, Prod.mk.injEq, List.drop_one, List.tail_cons]
  · next hdrop =>
    rw [hdrop]
    exact ⟨fun h => (by cases h), fun h => absurd h.2.symm hne⟩

/-- The test of a decimal without its sign. -/
theorem isFixed_iff {cs : List Char} :
    ((cs.takeWhile (· != '.')).all Numeral.isDigit && (cs.dropWhile (· != '.')).drop 1 != []
      && ((cs.dropWhile (· != '.')).drop 1).all Numeral.isDigit) = true
    ↔ cs ∈ digit∗ * (point * numeral) := by
  rw [mem_fixed_iff, Bool.and_eq_true, Bool.and_eq_true, bne_iff_ne]
  constructor
  · rintro ⟨⟨hwhole, hne⟩, hfraction⟩
    exact ⟨_, _, Decimal.splitPoint_eq_some ((splitPoint_eq_some_iff hne).2 ⟨rfl, rfl⟩), hwhole,
      hne, hfraction⟩
  · rintro ⟨whole, fraction, rfl, hwhole, hne, hfraction⟩
    obtain ⟨htake, hdrop⟩ :=
      (splitPoint_eq_some_iff hne).1 (Decimal.splitPoint_append hwhole fraction)
    rw [htake, hdrop]
    exact ⟨⟨hwhole, hne⟩, hfraction⟩

theorem any_mark_fixed (h : w ∈ digit∗ * (point * numeral)) :
    w.any isExponentMark = false ∧ w.all Numeral.isDigit = false := by
  obtain ⟨whole, fraction, rfl, hwhole, _, hfraction⟩ := mem_fixed_iff.1 h
  refine ⟨any_mark_parts hwhole hfraction, ?_⟩
  rw [List.all_append, List.all_cons]
  exact Bool.and_false _

/-- The tests of the reader, in the order in which it asks, on a token without its sign. -/
theorem numberType?_of_startsNumber {datatype : String} (h : StartsNumber (unsign token)) :
    numberType? token = some datatype ↔
      if (unsign token).all Numeral.isDigit then datatype = Xsd.integer
      else if (unsign token).any isExponentMark then
        (Floating.readScientific? token).isSome = true ∧ datatype = Xsd.double
      else unsign token ∈ digit∗ * (point * numeral) ∧ datatype = Xsd.decimal := by
  obtain ⟨c, cs, hbody, hc⟩ := h
  rw [numberType?, hbody]
  simp only [if_pos hc]
  split
  · rw [Option.some.injEq, eq_comm]
  split
  · rw [Option.map_eq_some_iff, Option.isSome_iff_exists]
    exact ⟨fun ⟨x, hx, heq⟩ => ⟨⟨x, hx⟩, heq.symm⟩, fun ⟨⟨x, hx⟩, heq⟩ => ⟨x, hx, heq.symm⟩⟩
  · rw [← isFixed_iff, Option.ite_none_right_eq_some, Option.some.injEq, eq_comm (a := datatype)]

theorem startsNumber_of_numberType? {datatype : String} (h : numberType? token = some datatype) :
    StartsNumber (unsign token) := by
  rw [numberType?] at h
  split at h
  · cases h
  · next c cs hbody =>
    by_cases hc : (Numeral.isDigit c || c == '.') = true
    · exact ⟨c, cs, hbody, hc⟩
    · rw [if_neg hc] at h
      cases h

/-- The datatype of a number is told by the language that it is a word of without its sign. -/
theorem numberType?_eq_some_iff {datatype : String} : numberType? token = some datatype
    ↔ unsign token ∈ numeral ∧ datatype = Xsd.integer
      ∨ unsign token ∈ digit∗ * (point * numeral) ∧ datatype = Xsd.decimal
      ∨ unsign token ∈ significand * exponent ∧ datatype = Xsd.double := by
  by_cases hstarts : StartsNumber (unsign token)
  · rw [numberType?_of_startsNumber hstarts, mem_floating_iff, mem_numeral_iff]
    obtain ⟨c, cs, hbody, _⟩ := id hstarts
    have hne : unsign token ≠ [] := hbody ▸ List.cons_ne_nil c cs
    split
    · next hall =>
      have hmark := any_mark_digits hall
      constructor
      · exact fun h => .inl ⟨⟨hne, hall⟩, h⟩
      · rintro (⟨_, h⟩ | ⟨h, _⟩ | ⟨⟨h, _⟩, _⟩)
        · exact h
        · exact absurd hall (Bool.eq_false_iff.1 (any_mark_fixed h).2)
        · exact absurd h (Bool.eq_false_iff.1 hmark)
    · next hall =>
      split
      · next hmark =>
        constructor
        · exact fun h => .inr (.inr ⟨⟨hmark, h.1⟩, h.2⟩)
        · rintro (⟨⟨_, h⟩, _⟩ | ⟨h, _⟩ | ⟨⟨_, h⟩, heq⟩)
          · exact absurd h hall
          · exact absurd hmark (Bool.eq_false_iff.1 (any_mark_fixed h).1)
          · exact ⟨h, heq⟩
      · next hmark =>
        constructor
        · exact fun h => .inr (.inl h)
        · rintro (⟨⟨_, h⟩, _⟩ | h | ⟨⟨h, _⟩, _⟩)
          · exact absurd h hall
          · exact h
          · exact absurd h hmark
  · constructor
    · exact fun h => absurd (startsNumber_of_numberType? h) hstarts
    · rintro (⟨h, _⟩ | ⟨h, _⟩ | ⟨h, _⟩)
      · exact absurd (startsNumber_of_mem_numeral h) hstarts
      · exact absurd (startsNumber_of_mem_fixed h) hstarts
      · exact absurd (startsNumber_of_mem_floating h) hstarts

/-- A truth value is no number. -/
theorem not_startsNumber_of_boolean (h : token ∈ Form.boolean.words) :
    ¬ StartsNumber (unsign token) := by
  rintro ⟨c, cs, hbody, hc⟩
  rcases h with rfl | rfl <;>
  · cases hbody
    exact absurd hc (by decide)

theorem datatype?_eq_some_iff {datatype : String} : datatype? token = some datatype
    ↔ ∃ form : Form, token ∈ form.words ∧ datatype = form.datatype := by
  have hforms : (∃ form : Form, token ∈ form.words ∧ datatype = form.datatype)
      ↔ token ∈ Form.boolean.words ∧ datatype = Xsd.boolean
        ∨ numberType? token = some datatype := by
    rw [numberType?_eq_some_iff, ← mem_sign_mul_iff fun _ => startsNumber_of_mem_numeral,
      ← mem_sign_mul_iff fun _ => startsNumber_of_mem_fixed,
      ← mem_sign_mul_iff fun _ => startsNumber_of_mem_floating]
    constructor
    · rintro ⟨form, h⟩
      cases form with
      | boolean => exact .inl h
      | integer => exact .inr (.inl h)
      | decimal => exact .inr (.inr (.inl h))
      | double => exact .inr (.inr (.inr h))
    · rintro (h | h | h | h)
      · exact ⟨.boolean, h⟩
      · exact ⟨.integer, h⟩
      · exact ⟨.decimal, h⟩
      · exact ⟨.double, h⟩
  rw [hforms, datatype?]
  split
  · next hboolean =>
    rw [Option.some.injEq, eq_comm]
    constructor
    · exact fun h => .inl ⟨hboolean, h⟩
    · rintro (⟨_, h⟩ | h)
      · exact h
      · exact absurd (startsNumber_of_numberType? h) (not_startsNumber_of_boolean hboolean)
  · next hnot => exact ⟨.inr, fun h => h.resolve_left fun h => hnot h.1⟩

/-- A token stands for a literal if and only if it is a word of one of the forms.  The literal has
the datatype of that form, and its label is the token. -/
theorem literal?_eq_some_iff (token : List Char) (l : Literal) : literal? token = some l
    ↔ ∃ form : Form, token ∈ form.words ∧ l = .typed (String.ofList token) form.datatype := by
  rw [literal?, Option.map_eq_some_iff]
  constructor
  · rintro ⟨datatype, h, rfl⟩
    obtain ⟨form, hform, rfl⟩ := datatype?_eq_some_iff.1 h
    exact ⟨form, hform, rfl⟩
  · rintro ⟨form, hform, rfl⟩
    exact ⟨form.datatype, datatype?_eq_some_iff.2 ⟨form, hform, rfl⟩, rfl⟩

end RdfIndex.Shorthand
