import Mathlib.Data.Nat.Digits.Defs
import RdfIndex.Bytes.Words
import RdfIndex.Proofs.Bytes.Checked

/-!
# Numbers of variable length, exactly

The bytes of a number end with the first one that has its high bit clear, and their groups of seven
bits are its digits, least significant first.  `StandsAt` says that such bytes stand at an offset of
a region, that they are ten at the most and that the number has 64 bits at the most.  A number is
read if and only if it stands there (`varint_eq_ok_iff`), and shifts of a word read the same
(`varintWord_eq_ok_iff`).  Zeros may stand for the highest groups.

* Reading: what is written from a byte with a given index on is told by one step and what is
  written from the next byte on (`isWritten_cons_iff`), so that the reading is exact by induction on
  the bytes (`decodeFrom_eq_ok_iff`).
* Writing: a word is written in the bytes of its number (`putWord_eq`), and whatever else it is read
  from is longer (`encode_shortest`).
* Signs: the exclusive or with the sign folds as `fold` does (`toNat_foldWord`), the least word with
  a sign included.
-/

namespace RdfIndex.Varint

variable {b : UInt8} {bytes rest : Bytes} {index n : Nat}

/-! ## Numerals -/

/-- Exactly the last of some bytes has its high bit clear. -/
def IsNumeral (bytes : Bytes) : Prop :=
  ∃ front last, bytes = front ++ [last] ∧ (∀ b ∈ front, b &&& 0x80 ≠ 0) ∧ last &&& 0x80 = 0

/-- The number whose groups of seven bits are those of some bytes, least significant first. -/
def valueOf (bytes : Bytes) : Nat := Nat.ofDigits 128 (bytes.map fun b => (b &&& 0x7F).toNat)

theorem valueOf_cons (b : UInt8) (rest : Bytes) :
    valueOf (b :: rest) = b.toNat % 128 + 128 * valueOf rest := by
  have hgroup := Checked.toNat_group b
  rw [UInt8.toNat_toUInt64] at hgroup
  rw [valueOf, List.map_cons, Nat.ofDigits_cons, hgroup]
  rfl

theorem not_isNumeral_nil : ¬ IsNumeral [] := by
  rintro ⟨front, last, h, _⟩
  cases front <;> cases h

theorem IsNumeral.length_pos (h : IsNumeral bytes) : 0 < bytes.length :=
  List.length_pos_iff.2 fun hnil => not_isNumeral_nil (hnil ▸ h)

theorem isNumeral_cons_iff : IsNumeral (b :: rest)
    ↔ (b.toNat < 128 ∧ rest = []) ∨ (128 ≤ b.toNat ∧ IsNumeral rest) := by
  rw [← Checked.high_eq_zero_iff, ← Nat.not_lt, ← Checked.high_eq_zero_iff]
  constructor
  · rintro ⟨front, last, h, hfront, hlast⟩
    cases front with
    | nil =>
      obtain ⟨rfl, rfl⟩ := List.cons.inj h
      exact .inl ⟨hlast, rfl⟩
    | cons c front =>
      obtain ⟨rfl, rfl⟩ := List.cons.inj h
      obtain ⟨hb, hrest⟩ := List.forall_mem_cons.1 hfront
      exact .inr ⟨hb, front, last, rfl, hrest, hlast⟩
  · rintro (⟨hb, rfl⟩ | ⟨hb, front, last, rfl, hfront, hlast⟩)
    · exact ⟨[], b, rfl, by simp, hb⟩
    · exact ⟨b :: front, last, rfl, List.forall_mem_cons.2 ⟨hb, hfront⟩, hlast⟩

/-- A number is written in bytes whose first group has some index.  There are ten groups at the
most, and no bit of the number goes beyond the sixty-fourth. -/
structure IsWritten (index : Nat) (bytes : Bytes) (n : Nat) : Prop where
  numeral : IsNumeral bytes
  length_le : index + bytes.length ≤ 10
  value : valueOf bytes = n
  lt : n < 2 ^ (64 - 7 * index)

theorem not_isWritten_nil : ¬ IsWritten index [] n := fun h => not_isNumeral_nil h.numeral

/-- There is no eleventh group. -/
theorem not_isWritten_ten : ¬ IsWritten 10 bytes n := by
  intro h
  cases bytes with
  | nil => exact not_isWritten_nil h
  | cons b rest =>
    have hle := h.length_le
    rw [List.length_cons] at hle
    omega

/-- The bits that are left for a group and for what follows it. -/
theorem two_pow_left (hindex : index < 9) :
    2 ^ (64 - 7 * index) = 128 * 2 ^ (64 - 7 * (index + 1)) := by
  rw [show 64 - 7 * index = 7 + (64 - 7 * (index + 1)) by omega, Nat.pow_add]

theorem isWritten_cons_iff : IsWritten index (b :: rest) n
    ↔ (b.toNat < 128 ∧ rest = [] ∧ n = b.toNat ∧ index ≤ 9 ∧ ¬ (index = 9 ∧ 1 < b.toNat % 128))
      ∨ (128 ≤ b.toNat ∧ ∃ m, n = b.toNat % 128 + 128 * m ∧ IsWritten (index + 1) rest m) := by
  constructor
  · rintro ⟨hnumeral, hle, hvalue, hlt⟩
    rw [List.length_cons] at hle
    rw [valueOf_cons] at hvalue
    rcases isNumeral_cons_iff.1 hnumeral with ⟨hb, rfl⟩ | ⟨hb, hrest⟩
    · have hn : n = b.toNat := by
        rw [← hvalue, valueOf, List.map_nil, Nat.ofDigits_nil]
        omega
      refine .inl ⟨hb, rfl, hn, by omega, fun ⟨hindex, hover⟩ => ?_⟩
      subst hindex
      omega
    · refine .inr ⟨hb, valueOf rest, hvalue.symm, hrest, by omega, rfl, ?_⟩
      -- A byte follows, so that this one is not the tenth.
      have hindex : index < 9 := by
        cases rest with
        | nil => exact absurd hrest not_isNumeral_nil
        | cons c rest =>
          rw [List.length_cons] at hle
          omega
      rw [two_pow_left hindex] at hlt
      omega
  · rintro (⟨hb, rfl, rfl, hindex, hover⟩ | ⟨hb, m, rfl, hrest⟩)
    · refine ⟨isNumeral_cons_iff.2 (.inl ⟨hb, rfl⟩), Nat.succ_le_succ hindex, ?_, ?_⟩
      · rw [valueOf_cons, valueOf, List.map_nil, Nat.ofDigits_nil]
        omega
      · rcases Nat.lt_or_ge index 9 with hlt | hge
        · rw [two_pow_left hlt]
          have hpos : 0 < 2 ^ (64 - 7 * (index + 1)) := Nat.two_pow_pos _
          omega
        · obtain rfl : index = 9 := by omega
          omega
    · have hindex : index ≠ 9 := fun h => not_isWritten_ten (h ▸ hrest)
      obtain ⟨hnumeral, hle, hvalue, hlt⟩ := hrest
      refine ⟨isNumeral_cons_iff.2 (.inr ⟨hb, hnumeral⟩), ?_, ?_, ?_⟩
      · rw [List.length_cons]
        omega
      · rw [valueOf_cons, hvalue]
      · rw [two_pow_left (by omega)]
        omega

/-! ## Reading -/

/-- A number is written at the start of some bytes, before some others. -/
def WrittenBefore (rest : Bytes) (index : Nat) (bytes : Bytes) (n : Nat) : Prop :=
  ∃ groups, bytes = groups ++ rest ∧ IsWritten index groups n

theorem not_writtenBefore_nil : ¬ WrittenBefore rest index [] n := by
  rintro ⟨groups, h, hgroups⟩
  obtain ⟨rfl, _⟩ := List.append_eq_nil_iff.1 h.symm
  exact not_isWritten_nil hgroups

theorem not_writtenBefore_ten : ¬ WrittenBefore rest 10 bytes n := by
  rintro ⟨groups, _, hgroups⟩
  exact not_isWritten_ten hgroups

theorem writtenBefore_cons_iff : WrittenBefore rest index (b :: bytes) n
    ↔ (b.toNat < 128 ∧ bytes = rest ∧ n = b.toNat ∧ index ≤ 9
        ∧ ¬ (index = 9 ∧ 1 < b.toNat % 128))
      ∨ (128 ≤ b.toNat
        ∧ ∃ m, n = b.toNat % 128 + 128 * m ∧ WrittenBefore rest (index + 1) bytes m) := by
  constructor
  · rintro ⟨groups, h, hgroups⟩
    cases groups with
    | nil => exact absurd hgroups not_isWritten_nil
    | cons c groups =>
      obtain ⟨rfl, rfl⟩ := List.cons.inj h
      rcases isWritten_cons_iff.1 hgroups with ⟨hb, rfl, hn⟩ | ⟨hb, m, hn, hm⟩
      · exact .inl ⟨hb, rfl, hn⟩
      · exact .inr ⟨hb, m, hn, groups, rfl, hm⟩
  · rintro (⟨hb, rfl, hn⟩ | ⟨hb, m, hn, groups, rfl, hm⟩)
    · exact ⟨[b], rfl, isWritten_cons_iff.2 (.inl ⟨hb, rfl, hn⟩)⟩
    · exact ⟨b :: groups, rfl, isWritten_cons_iff.2 (.inr ⟨hb, m, hn, hm⟩)⟩

/-- What is read from a byte on is what is written there. -/
theorem decodeFrom_eq_ok_iff (bytes : Bytes) : ∀ {index n : Nat} {rest : Bytes}, index ≤ 10 →
    (decodeFrom index bytes = (.ok n, rest) ↔ WrittenBefore rest index bytes n) := by
  induction bytes with
  | nil =>
    intro index n rest _
    refine iff_of_false (fun h => ?_) not_writtenBefore_nil
    cases h
  | cons b bytes ih =>
    intro index n rest hindex
    rw [decodeFrom]
    by_cases hten : index = 10
    · rw [if_pos hten]
      refine iff_of_false (fun h => ?_) (hten ▸ not_writtenBefore_ten)
      cases h
    rw [if_neg hten, writtenBefore_cons_iff]
    by_cases hover : index = 9 ∧ 1 < b.toNat % 128
    · -- One bit is left for the tenth group, and no byte may follow it.
      rw [if_pos hover]
      constructor
      · intro h
        cases h
      · rintro (⟨_, _, _, _, hfits⟩ | ⟨_, m, _, hm⟩)
        · exact absurd hover hfits
        · exact absurd (hover.1 ▸ hm) not_writtenBefore_ten
    rw [if_neg hover]
    by_cases hlast : b.toNat < 128
    · rw [if_pos hlast]
      constructor
      · intro h
        cases h
        exact .inl ⟨hlast, rfl, rfl, by omega, hover⟩
      · rintro (⟨_, rfl, rfl, _⟩ | ⟨hb, _⟩)
        · rfl
        · omega
    · rw [if_neg hlast]
      constructor
      · intro h
        split at h
        · next m left hm =>
          cases h
          exact .inr ⟨by omega, m, rfl, (ih (by omega)).1 hm⟩
        · cases h
      · rintro (⟨hb, _⟩ | ⟨_, m, rfl, hm⟩)
        · exact absurd hb hlast
        · rw [(ih (by omega)).2 hm]

/-- A number stands at an offset of a region, up to another offset: in at most ten bytes, exactly
the last of which has its high bit clear. -/
def StandsAt (region : Bytes) (offset n next : Nat) : Prop :=
  ∃ bytes, bytes <+: region.drop offset ∧ IsNumeral bytes ∧ bytes.length ≤ 10
    ∧ valueOf bytes = n ∧ n < 2 ^ 64 ∧ next = offset + bytes.length

variable {region : Bytes} {offset next : Nat}

theorem decodeFrom_suffix (index : Nat) (bytes : Bytes) : (decodeFrom index bytes).2 <:+ bytes := by
  fun_induction decodeFrom index bytes with
  | case1 index => exact List.suffix_refl _
  | case2 b rest => exact List.suffix_refl _
  | case3 index b rest => exact List.suffix_cons b rest
  | case4 index b rest => exact List.suffix_cons b rest
  | case5 index b rest _ _ _ n left hread ih =>
    rw [hread] at ih
    exact ih.trans (List.suffix_cons b rest)
  | case6 index b rest _ _ _ e left hread ih =>
    rw [hread] at ih
    exact ih.trans (List.suffix_cons b rest)

/-- What is left of the bytes tells where the cursor stands. -/
theorem varint_eq {result : Except DecodeError Nat}
    (h : decode (region.drop offset) = (result, region.drop next)) (hlow : offset ≤ next)
    (hhigh : next ≤ region.length ∨ next = offset) :
    Reader.varint (.within region offset) = (result, .within region next) := by
  have hnext : offset + ((region.drop offset).length - (region.drop next).length) = next := by
    rw [List.length_drop, List.length_drop]
    omega
  show ((decode (region.drop offset)).1, Cursor.mk (offset + ((region.drop offset).length
    - (decode (region.drop offset)).2.length)) (decode (region.drop offset)).2) = _
  rw [h, hnext]
  rfl

theorem exists_decode_eq (region : Bytes) (offset : Nat) : ∃ result next,
    decode (region.drop offset) = (result, region.drop next) ∧ offset ≤ next
      ∧ (next ≤ region.length ∨ next = offset) := by
  have hsuffix := decodeFrom_suffix 0 (region.drop offset)
  have hle := hsuffix.length_le
  rw [List.length_drop] at hle
  refine ⟨_, offset + ((region.drop offset).length - (decode (region.drop offset)).2.length),
    Prod.ext rfl ?_, Nat.le_add_right _ _, ?_⟩
  · rw [← List.drop_drop]
    exact List.suffix_iff_eq_drop.1 hsuffix
  · rw [List.length_drop]
    omega

theorem varint_eq_ok_iff : Reader.varint (.within region offset) = (.ok n, .within region next)
    ↔ StandsAt region offset n next := by
  constructor
  · intro h
    obtain ⟨result, stop, hdecode, hlow, hhigh⟩ := exists_decode_eq region offset
    rw [varint_eq hdecode hlow hhigh] at h
    obtain ⟨rfl, hcursor⟩ := Prod.mk.inj h
    obtain rfl : stop = next := congrArg Cursor.offset hcursor
    obtain ⟨bytes, hbytes, hnumeral, hle, hvalue, hlt⟩ :=
      (decodeFrom_eq_ok_iff _ (Nat.zero_le 10)).1 hdecode
    refine ⟨bytes, ⟨_, hbytes.symm⟩, hnumeral, by omega, hvalue, hlt, ?_⟩
    have hlength := congrArg List.length hbytes
    have hpos := hnumeral.length_pos
    rw [List.length_append, List.length_drop, List.length_drop] at hlength
    omega
  · rintro ⟨bytes, ⟨left, hbytes⟩, hnumeral, hle, hvalue, hlt, rfl⟩
    have hleft : left = region.drop (offset + bytes.length) := by
      rw [← List.drop_drop, ← hbytes, List.drop_left]
    have hlength := congrArg List.length hbytes
    rw [List.length_append, List.length_drop] at hlength
    refine varint_eq ?_ (Nat.le_add_right _ _) (by omega)
    exact (decodeFrom_eq_ok_iff _ (Nat.zero_le 10)).2
      ⟨bytes, hleft ▸ hbytes.symm, hnumeral, by omega, hvalue, hlt⟩

/-! ## Reading words -/

/-- Also an offset beyond the end is no harm: there is no byte at it. -/
theorem varintWord_continues (h : region.length < positionLimit) (offset : Nat) :
    Checked.Continues region offset 0 0 (Checked.varintWord region offset)
      (decode (region.drop offset)) := by
  by_cases hoffset : offset ≤ region.length
  · exact Checked.varintFrom_continues h rfl hoffset (by decide)
  · rw [Checked.varintWord, Checked.varintFrom_end (List.getElem?_eq_none (by omega)),
      List.drop_eq_nil_of_le (by omega)]
    exact .refused _ _

theorem varintWord_eq_ok_iff (h : region.length < positionLimit) {word : UInt64} :
    Checked.varintWord region offset = .ok (word, next)
      ↔ StandsAt region offset word.toNat next := by
  rw [← varint_eq_ok_iff]
  have hcontinues := varintWord_continues h offset
  generalize hdecode : decode (region.drop offset) = decoded at hcontinues
  generalize Checked.varintWord region offset = checked at hcontinues
  cases hcontinues with
  | @read result m stop hresult hlow hhigh =>
    rw [varint_eq hdecode hlow (.inl hhigh)]
    have hm : result.toNat = m := by simpa using hresult
    constructor
    · intro h
      cases h
      rw [hm]
    · intro h
      obtain ⟨hok, hcursor⟩ := Prod.mk.inj h
      obtain rfl : stop = next := congrArg Cursor.offset hcursor
      cases hok
      rw [UInt64.toNat_inj.1 hm]
  | refused e left =>
    refine iff_of_false (fun h => ?_) (fun h => ?_)
    · cases h
    · have herror : (Reader.varint (.within region offset)).1 = .error e :=
        congrArg Prod.fst hdecode
      rw [h] at herror
      cases herror

theorem varintWord_eq_error (h : region.length < positionLimit) {stop : Stop}
    (hstop : Checked.varintWord region offset = .error stop) :
    ∃ e, (Reader.varint (.within region offset)).1 = .error e ∧ stop = .failed (.decode e) := by
  have hcontinues := varintWord_continues h offset
  generalize hdecode : decode (region.drop offset) = decoded at hcontinues
  rw [hstop] at hcontinues
  cases hcontinues with
  | refused e left => exact ⟨e, congrArg Prod.fst hdecode, rfl⟩

/-! ## Writing words -/

/-- The lowest seven bits of a word as a byte. -/
theorem toNat_lowest (word : UInt64) : (word &&& 0x7F).toUInt8.toNat = word.toNat % 128 := by
  have hmask : (word &&& 0x7F).toNat = word.toNat % 128 := by
    rw [UInt64.toNat_and]
    exact Nat.and_two_pow_sub_one_eq_mod word.toNat 7
  rw [UInt64.toNat_toUInt8, hmask]
  omega

/-- Setting the high bit of a byte that does not have it is an addition. -/
theorem toNat_setHigh (h : b.toNat < 2 ^ 7) : (b ||| 0x80).toNat = b.toNat + 128 := by
  rw [UInt8.toNat_or, Nat.or_comm, Nat.add_comm]
  exact (Nat.two_pow_add_eq_or_of_lt h 1).symm

/-- Writing a word appends its bytes. -/
theorem putWord_eq (out : Bytes) (word : UInt64) : putWord out word = out ++ encode word.toNat := by
  fun_induction putWord out word with
  | case1 out word group hleft =>
    rw [shiftRight_seven_eq_zero_iff] at hleft
    have hgroup : group = UInt8.ofNat word.toNat := by
      rw [← UInt8.toNat_inj, toNat_lowest, UInt8.toNat_ofNat']
      omega
    rw [encode_of_lt hleft, hgroup]
  | case2 out word group hleft ih =>
    rw [shiftRight_seven_eq_zero_iff] at hleft
    have hgroup : group.toNat = word.toNat % 128 := toNat_lowest word
    have hbyte : group ||| 0x80 = UInt8.ofNat (word.toNat % 128 + 128) := by
      rw [← UInt8.toNat_inj, toNat_setHigh (by omega), UInt8.toNat_ofNat', hgroup]
      omega
    rw [ih, encode_of_le (Nat.not_lt.1 hleft), toNat_shiftRight_seven, hbyte, List.append_assoc,
      List.singleton_append]

/-- No other bytes of a number are as few as those that are written. -/
theorem encode_shortest (bytes : Bytes) : ∀ {n : Nat}, IsNumeral bytes → valueOf bytes = n →
    bytes = encode n ∨ (encode n).length < bytes.length := by
  induction bytes with
  | nil => exact fun h _ => absurd h not_isNumeral_nil
  | cons b rest ih =>
    intro n hnumeral hvalue
    have hb := b.toNat_lt
    rw [valueOf_cons] at hvalue
    rcases isNumeral_cons_iff.1 hnumeral with ⟨hlast, rfl⟩ | ⟨hhigh, hrest⟩
    · have hn : n = b.toNat := by
        rw [← hvalue, valueOf, List.map_nil, Nat.ofDigits_nil]
        omega
      rw [hn, encode_of_lt hlast, UInt8.ofNat_toNat]
      exact .inl rfl
    · have hpos := hrest.length_pos
      by_cases hsmall : n < 128
      · rw [encode_of_lt hsmall]
        exact .inr (Nat.succ_lt_succ hpos)
      · have hgroup : n % 128 + 128 = b.toNat := by omega
        have hleft : valueOf rest = n / 128 := by omega
        rw [encode_of_le (by omega), hgroup, UInt8.ofNat_toNat]
        rcases ih hrest hleft with heq | hlt
        · exact .inl (by rw [← heq])
        · exact .inr (Nat.succ_lt_succ hlt)

/-! ## Folding words -/

theorem shiftRight_sign (i : Int64) : i >>> 63 = if i.toInt < 0 then -1 else 0 := by
  have hlow := i.le_toInt
  have hhigh := i.toInt_lt
  have hshift : (i >>> 63).toInt = i.toInt / 2 ^ 63 := by
    show (i >>> 63).toBitVec.toInt = _
    rw [Int64.toBitVec_shiftRight]
    exact (BitVec.toInt_sshiftRight (x := i.toBitVec) (n := 63)).trans
      (Int.shiftRight_eq_div_pow _ 63)
  rw [← Int64.toInt_inj, hshift]
  split
  · show i.toInt / 2 ^ 63 = -1
    omega
  · show i.toInt / 2 ^ 63 = 0
    omega

theorem toNat_shiftLeft_one (i : Int64) :
    ((i <<< 1).toUInt64.toNat : Int) = 2 * i.toInt % 2 ^ 64 := by
  have hshift : (i <<< 1).toUInt64.toNat = 2 * i.toUInt64.toNat % 2 ^ 64 := by
    show (i <<< 1).toBitVec.toNat = _
    rw [Int64.toBitVec_shiftLeft]
    show (i.toBitVec <<< 1).toNat = 2 * i.toBitVec.toNat % 2 ^ 64
    rw [BitVec.toNat_shiftLeft, Nat.shiftLeft_eq, Nat.mul_comm]
  have hint : i.toInt = if 2 * i.toUInt64.toNat < 2 ^ 64 then (i.toUInt64.toNat : Int)
      else i.toUInt64.toNat - 2 ^ 64 := BitVec.toInt_eq_toNat_cond i.toBitVec
  rw [hshift, hint]
  split <;> omega

theorem toNat_foldWord (i : Int64) : (foldWord i).toNat = fold i.toInt := by
  have hlow := i.le_toInt
  have hhigh := i.toInt_lt
  have hleft := toNat_shiftLeft_one i
  rw [foldWord, shiftRight_sign, fold]
  by_cases hneg : i.toInt < 0
  · rw [if_pos hneg, if_neg (by omega), Int64.xor_neg_one, Int64.toUInt64_not, UInt64.toNat_not]
    show 2 ^ 64 - 1 - _ = _
    omega
  · rw [if_neg hneg, if_pos (by omega), Int64.xor_zero]
    omega

/-- Unfolding takes folding back, and no step of it overflows. -/
theorem unfold_foldWord (i : Int64) : Checked.unfold (foldWord i) = .ok i := by
  obtain ⟨j, hj, hint⟩ := Checked.unfold_eq (foldWord i)
  rw [toNat_foldWord, unfold_fold] at hint
  rw [hj, Int64.toInt_inj.1 hint]

theorem foldWord_of_unfold {word : UInt64} {i : Int64} (h : Checked.unfold word = .ok i) :
    foldWord i = word := by
  obtain ⟨j, hj, hint⟩ := Checked.unfold_eq word
  rw [hj] at h
  cases h
  rw [← UInt64.toNat_inj, toNat_foldWord, hint, fold_unfold]

/-! ## The whole -/

/-- What is read of a number of variable length at an offset of a region. -/
structure ReadsExactly (region : Bytes) (offset : Nat) : Prop where
  /-- A number is read if and only if it stands there, up to where it ends.  All else is an error of
  decoding. -/
  accepts : ∀ n next, Reader.varint (.within region offset) = (.ok n, .within region next)
    ↔ StandsAt region offset n next
  /-- Whatever is read, the cursor stays in the region, or it stays where it is. -/
  stays : ∃ next, (Reader.varint (.within region offset)).2 = .within region next ∧ offset ≤ next
    ∧ (next ≤ region.length ∨ next = offset)
  /-- Shifts of a word of 64 bits read the same number. -/
  words : region.length < positionLimit → ∀ word next,
    Checked.varintWord region offset = .ok (word, next) ↔ StandsAt region offset word.toNat next
  /-- They stop with the same errors, and for no other cause. -/
  errors : region.length < positionLimit → ∀ stop, Checked.varintWord region offset = .error stop →
    ∃ e, (Reader.varint (.within region offset)).1 = .error e ∧ stop = .failed (.decode e)

theorem readsExactly (region : Bytes) (offset : Nat) : ReadsExactly region offset where
  accepts _ _ := varint_eq_ok_iff
  stays := by
    obtain ⟨result, next, hdecode, hlow, hhigh⟩ := exists_decode_eq region offset
    exact ⟨next, congrArg Prod.snd (varint_eq hdecode hlow hhigh), hlow, hhigh⟩
  words h _ _ := varintWord_eq_ok_iff h
  errors h _ := varintWord_eq_error h

/-- What is written of a word. -/
structure ComesBack (word : UInt64) : Prop where
  /-- Writing appends the bytes of the number. -/
  appended : ∀ out, putWord out word = out ++ encode word.toNat
  /-- The word is read again, whatever follows, and nothing of what follows is. -/
  read : ∀ tail, Reader.varint (.start (putWord [] word ++ tail))
    = (.ok word.toNat, ⟨(putWord [] word).length, tail⟩)
  readWord : ∀ tail, (putWord [] word ++ tail).length < positionLimit →
    Checked.varintWord (putWord [] word ++ tail) 0 = .ok (word, (putWord [] word).length)
  /-- All other bytes that the word is read from are more. -/
  shortest : ∀ bytes, StandsAt bytes 0 word.toNat bytes.length →
    bytes = putWord [] word ∨ (putWord [] word).length < bytes.length

theorem varint_encode (h : n < 2 ^ 64) (tail : Bytes) :
    Reader.varint (.start (encode n ++ tail)) = (.ok n, ⟨(encode n).length, tail⟩) := by
  have hle : (encode n).length ≤ 10 := length_encode_le 9 n (Nat.lt_trans h (by decide))
  have hread := Reader.reads_varint h 0 tail (by rw [positionLimit]; omega)
  rwa [Nat.zero_add] at hread

theorem within_append (bytes tail : Bytes) :
    Cursor.within (bytes ++ tail) bytes.length = ⟨bytes.length, tail⟩ := by
  rw [Cursor.within, List.drop_left]

theorem comesBack (word : UInt64) : ComesBack word := by
  have hbytes : putWord [] word = encode word.toNat := putWord_eq [] word
  have hread := varint_encode word.toNat_lt
  refine ⟨fun out => putWord_eq out word, ?_, ?_, ?_⟩
  · rw [hbytes]
    exact hread
  · rw [hbytes]
    intro tail hlimit
    refine (varintWord_eq_ok_iff hlimit).2 (varint_eq_ok_iff.1 ?_)
    rw [within_append]
    exact hread tail
  · rw [hbytes]
    rintro bytes ⟨digits, hstart, hnumeral, _, hvalue, _, hlength⟩
    rw [hstart.eq_of_length (by rw [List.length_drop]; omega)] at hnumeral hvalue
    exact encode_shortest bytes hnumeral hvalue

/-- What is written of a signed word. -/
structure SignedComesBack (i : Int64) : Prop where
  appended : ∀ out, putInt out i = out ++ encodeInt i.toInt
  read : ∀ tail, Reader.varintInt (.start (putInt [] i ++ tail))
    = (.ok i.toInt, ⟨(putInt [] i).length, tail⟩)
  readWord : ∀ tail, (putInt [] i ++ tail).length < positionLimit →
    Checked.varintInt (putInt [] i ++ tail) 0 = .ok (i.toInt, (putInt [] i).length)
  /-- No other word is read as the same signed word. -/
  unfolds : ∀ word, Checked.unfold word = .ok i ↔ word = foldWord i

theorem signedComesBack (i : Int64) : SignedComesBack i := by
  have hword := comesBack (foldWord i)
  refine ⟨fun out => ?_, fun tail => ?_, fun tail hlimit => ?_, fun word => ⟨fun h => ?_, ?_⟩⟩
  · rw [putInt, putWord_eq, toNat_foldWord, encodeInt]
  · have hint : unfold (foldWord i).toNat = i.toInt := by rw [toNat_foldWord, unfold_fold]
    refine (Reader.bind_ok (hword.read tail)).trans ?_
    show (Except.ok (unfold (foldWord i).toNat), _) = _
    rw [hint]
    rfl
  · have hread : Checked.varintWord (putInt [] i ++ tail) 0 = _ := hword.readWord tail hlimit
    show Checked.bind Checked.varintWord _ _ _ = _
    rw [Checked.bind, hread]
    show (Checked.step (Checked.unfold (foldWord i)) >>= fun i => Pure.pure i.toInt) _ _ = _
    rw [unfold_foldWord]
    rfl
  · exact (foldWord_of_unfold h).symm
  · rintro rfl
    exact unfold_foldWord i

/-- Numbers of variable length are read exactly.  At every offset of every region a number is read
if and only if it stands there, up to where it ends, and all else is an error that leaves the cursor
in the region.  Every word comes back from its bytes, whatever follows them, and these are the
fewest that it is read from.  So does every word with a sign. -/
theorem read_exactly :
    (∀ region offset, ReadsExactly region offset) ∧ (∀ word, ComesBack word)
      ∧ ∀ i, SignedComesBack i :=
  ⟨readsExactly, comesBack, signedComesBack⟩

/-- A number with a byte before it, a group of zeros after its own and a byte after that. -/
def paddedNumber : Bytes := [0xFF, 0x96, 0x81, 0x00, 0x05]

theorem standsAt_paddedNumber : StandsAt paddedNumber 1 150 4 := by
  have hlast : IsNumeral [0x00] := isNumeral_cons_iff.2 (.inl ⟨by decide, rfl⟩)
  have hnumeral : IsNumeral [0x96, 0x81, 0x00] :=
    isNumeral_cons_iff.2 (.inr ⟨by decide, isNumeral_cons_iff.2 (.inr ⟨by decide, hlast⟩)⟩)
  exact ⟨[0x96, 0x81, 0x00], ⟨[0x05], rfl⟩, hnumeral, by decide, rfl, by decide, rfl⟩

theorem read_exactly_padded :
    (paddedNumber.length < positionLimit ∧ Checked.varintWord paddedNumber 1 = .ok (150, 4)
      ∧ Reader.varint (.within paddedNumber 1) = (.ok 150, .within paddedNumber 4))
    ∧ (putInt [] Int64.minValue).length = 10
    ∧ Checked.varintInt (putInt [] Int64.minValue) 0 = .ok (-0x8000000000000000, 10) := by
  obtain ⟨hreads, _, hsigned⟩ := read_exactly
  have hlimit : paddedNumber.length < positionLimit := by decide
  have hword := ((hreads paddedNumber 1).words hlimit 150 4).2 standsAt_paddedNumber
  have hnumber := ((hreads paddedNumber 1).accepts 150 4).2 standsAt_paddedNumber
  have hleast := hsigned Int64.minValue
  have hlength : (putInt [] Int64.minValue).length = 10 := by
    rw [hleast.appended]
    decide +kernel
  have hread := hleast.readWord [] (by rw [List.append_nil, hlength]; decide)
  rw [List.append_nil, hlength] at hread
  exact ⟨⟨hlimit, hword, hnumber⟩, hlength, hread⟩

end RdfIndex.Varint
