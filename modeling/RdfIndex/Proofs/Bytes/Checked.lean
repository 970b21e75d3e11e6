import RdfIndex.Bytes.Checked
import RdfIndex.Proofs.Encoding.Read

/-!
# Checked reads and readers

A checked read does what a reader does (`Mirrors`): both give the same result and stand at the same
place of the region after it, or the one stops with the error of decoding that the other gives.  So
none of the other stops can come of it.  What is read in turn is mirrored in turn (`Mirrors.bind`).

A number of variable length is read into a word of 64 bits.  The groups before a byte are below the
place where its group goes, so that inserting the group is an addition (`toNat_insert`), and the
tenth group is a single bit at the most, so that nothing is moved out of the word.
-/

namespace RdfIndex

/-- An offset in a region that a machine can hold. -/
structure Inside (region : Bytes) (offset : Nat) : Prop where
  offset_le : offset ≤ region.length
  length_lt : region.length < positionLimit

/-- The cursor at an offset of a region. -/
def Cursor.within (region : Bytes) (offset : Nat) : Cursor := ⟨offset, region.drop offset⟩

theorem Reader.bind_pure {α : Type} (r : Reader α) : (r >>= fun a => Pure.pure a) = r := by
  funext c
  show Reader.bind r _ c = _
  rw [Reader.bind]
  split <;> next h => exact h.symm

theorem Stop.ofDecode_bind {α β : Type} (x : Except DecodeError α) (f : α → Except DecodeError β) :
    Stop.ofDecode (x >>= f) = Stop.ofDecode x >>= fun a => Stop.ofDecode (f a) := by
  cases x <;> rfl

namespace Checked

variable {α β : Type} {region : Bytes} {offset : Nat}

/-- The outcome of a checked read and that of a reader agree. -/
inductive Agrees (region : Bytes) :
    Except Stop (α × Nat) → Except DecodeError α × Cursor → Prop
  /-- Both read the same and stand at the same place. -/
  | read (a : α) {next : Nat} (h : Inside region next) :
    Agrees region (.ok (a, next)) (.ok a, .within region next)
  /-- Both refuse the bytes for the same cause. -/
  | refused (e : DecodeError) (c : Cursor) :
    Agrees region (.error (.failed (.decode e))) (.error e, c)

/-- A checked read does from an offset what a reader does. -/
def Mirrors (region : Bytes) (offset : Nat) (m : Checked α) (r : Reader α) : Prop :=
  Agrees region (m region offset) (r (.within region offset))

/-! ## In turn -/

theorem mirrors_pure (h : Inside region offset) (a : α) :
    Mirrors region offset (Pure.pure a) (Pure.pure a) :=
  .read a h

theorem Mirrors.bind {m : Checked α} {r : Reader α} {f : α → Checked β} {g : α → Reader β}
    (h : Mirrors region offset m r)
    (hf : ∀ a next, r (.within region offset) = (.ok a, .within region next) →
      Inside region next → Mirrors region next (f a) (g a)) :
    Mirrors region offset (m >>= f) (r >>= g) := by
  show Agrees region (Checked.bind m f region offset) (Reader.bind r g (.within region offset))
  rw [Checked.bind, Reader.bind]
  rw [Mirrors] at h
  generalize hr : r (.within region offset) = outcome at h
  generalize m region offset = checked at h
  cases h with
  | read a hnext => exact hf a _ hr hnext
  | refused e c => exact .refused e c

theorem Mirrors.ret {m : Checked α} {r : Reader α} (h : Mirrors region offset m r) (f : α → β) :
    Mirrors region offset (m >>= fun a => Pure.pure (f a)) (r >>= fun a => Pure.pure (f a)) :=
  h.bind fun a _ _ hnext => mirrors_pure hnext (f a)

theorem Mirrors.map {m : Checked α} {r : Reader α} (h : Mirrors region offset m r) (f : α → β) :
    Mirrors region offset (f <$> m) (f <$> r) :=
  h.ret f

theorem Mirrors.ite {c : Prop} [Decidable c] {m m' : Checked α} {r r' : Reader α}
    (h : Mirrors region offset m r) (h' : Mirrors region offset m' r') :
    Mirrors region offset (if c then m else m') (if c then r else r') := by
  split
  · exact h
  · exact h'

/-! ## Checks -/

/-- A step that does not stop but for an error of decoding is a check. -/
theorem mirrors_step (h : Inside region offset) {result : Except Stop α}
    {expected : Except DecodeError α} (hresult : result = Stop.ofDecode expected) :
    Mirrors region offset (step result) (Reader.check expected) := by
  subst hresult
  cases expected with
  | ok a => exact .read a h
  | error e => exact .refused e _

/-- What comes after a step starts where the step does. -/
theorem mirrors_step_bind {result : Except Stop α} {expected : Except DecodeError α}
    {f : α → Checked β} {g : α → Reader β} (hresult : result = Stop.ofDecode expected)
    (hf : ∀ a, expected = .ok a → Mirrors region offset (f a) (g a)) :
    Mirrors region offset (step result >>= f) (Reader.check expected >>= g) := by
  subst hresult
  cases expected with
  | ok a => exact hf a rfl
  | error e => exact .refused e _

theorem mirrors_check (h : Inside region offset) (result : Except DecodeError α) :
    Mirrors region offset (check result) (Reader.check result) :=
  mirrors_step h rfl

theorem mirrors_fail (h : Inside region offset) (e : DecodeError) :
    Mirrors region offset (fail e : Checked α) (Reader.fail e) :=
  mirrors_check h (.error e)

theorem mirrors_found (h : Inside region offset) (entry : Option α) (missing : DecodeError) :
    Mirrors region offset (found entry missing) (Reader.found entry missing) := by
  cases entry with
  | some a => exact .read a h
  | none => exact mirrors_fail h missing

/-! ## Bytes -/

theorem length_within (region : Bytes) (offset : Nat) :
    (Cursor.within region offset).rest.length = region.length - offset :=
  List.length_drop

theorem slice_eq {as : List α} {start stop : Nat} (hstart : start ≤ stop)
    (hstop : stop ≤ as.length) : Machine.slice as start stop = .ok ((as.take stop).drop start) :=
  if_pos ⟨hstart, hstop⟩

theorem mirrors_take (h : Inside region offset) (count : Nat) :
    Mirrors region offset (take count) (Reader.take count) := by
  have hoffset := h.offset_le
  have hrest := length_within region offset
  rw [Mirrors, take, Reader.take]
  by_cases hlimit : positionLimit ≤ offset + count
  · rw [if_pos hlimit, if_pos (show positionLimit ≤ (Cursor.within region offset).offset + count
      from hlimit)]
    exact .refused _ _
  · rw [if_neg hlimit, if_neg (show ¬ positionLimit ≤ (Cursor.within region offset).offset + count
      from hlimit), hrest]
    by_cases hshort : region.length < offset + count
    · rw [if_pos hshort, if_pos (by omega)]
      exact .refused _ _
    · have hstop : offset + count ≤ region.length := by omega
      rw [if_neg hshort, if_neg (by omega), slice_eq (Nat.le_add_right offset count) hstop,
        List.drop_take, Nat.add_sub_cancel_left]
      have hread := Agrees.read ((region.drop offset).take count)
        (⟨hstop, h.length_lt⟩ : Inside region (offset + count))
      rwa [Cursor.within, ← List.drop_drop] at hread

theorem mirrors_rest (h : Inside region offset) :
    Mirrors region offset rest Reader.rest := by
  have hoffset := h.offset_le
  have hrest := length_within region offset
  have hnext : offset + (Cursor.within region offset).rest.length = region.length := by omega
  have hread := Agrees.read (region.drop offset)
    (⟨Nat.le_refl _, h.length_lt⟩ : Inside region region.length)
  rw [Cursor.within, List.drop_length] at hread
  rw [Mirrors, rest, Reader.rest, slice_eq hoffset (Nat.le_refl _), List.take_length]
  show Agrees region (.ok (region.drop offset, region.length))
    (.ok (region.drop offset), ⟨offset + (Cursor.within region offset).rest.length, []⟩)
  rwa [hnext]

theorem length_of_take {count : Nat} {c c' : Cursor} {bytes : Bytes}
    (h : Reader.take count c = (.ok bytes, c')) : bytes.length = count := by
  rw [Reader.take] at h
  split at h
  · cases h
  · split at h
    · cases h
    · cases h
      rw [List.length_take]
      omega

/-- Bytes that were taken fill an array of their number. -/
theorem mirrors_array (h : Inside region offset) (width : Nat) :
    Mirrors region offset (array width) (Reader.take width) := by
  rw [← Reader.bind_pure (Reader.take width)]
  refine (mirrors_take h width).bind fun bytes next hread hnext => ?_
  rw [if_pos (length_of_take hread)]
  exact .read bytes hnext

/-! ## Numbers of fixed width -/

theorem mirrors_word (h : Inside region offset) (width : Nat) :
    Mirrors region offset (word width) (Reader.word width) :=
  (mirrors_array h width).ret Bytes.ofBigEndian

theorem mirrors_int (h : Inside region offset) (width : Nat) :
    Mirrors region offset (int width) (Reader.int width) :=
  (mirrors_array h width).ret Bytes.toInt

/-- The only byte that was taken is the number that it writes. -/
theorem mirrors_byte (h : Inside region offset) :
    Mirrors region offset byte (Reader.word 1) := by
  refine (mirrors_take h 1).bind fun bytes next hread hnext => ?_
  obtain ⟨b, rfl⟩ := List.length_eq_one_iff.1 (length_of_take hread)
  rw [show Bytes.ofBigEndian [b] = b.toNat by simp [Bytes.ofBigEndian]]
  exact .read b.toNat hnext

/-! ## Numbers of variable length -/

/-- Inserting a group above all bits of a word is an addition. -/
theorem toNat_insert {word group : UInt64} {places : Nat} (hplaces : places < 64)
    (hword : word.toNat < 2 ^ places) (hgroup : group.toNat * 2 ^ places < 2 ^ 64) :
    (word ||| group <<< UInt64.ofNat places).toNat = word.toNat + group.toNat * 2 ^ places := by
  have hmod : (UInt64.ofNat places).toNat % 64 = places := by
    rw [UInt64.toNat_ofNat']
    omega
  rw [UInt64.toNat_or, UInt64.toNat_shiftLeft, hmod, Nat.shiftLeft_eq, Nat.mod_eq_of_lt hgroup,
    Nat.or_comm, Nat.mul_comm group.toNat, ← Nat.two_pow_add_eq_or_of_lt hword, Nat.add_comm]

/-- The group of a byte is its number without the high bit. -/
theorem toNat_group (b : UInt8) : (b &&& 0x7F).toUInt64.toNat = b.toNat % 128 := by
  rw [UInt8.toNat_toUInt64, UInt8.toNat_and]
  exact Nat.and_two_pow_sub_one_eq_mod b.toNat 7

/-- A byte is the last one of a number if its high bit is not set. -/
theorem high_eq_zero_iff (b : UInt8) : b &&& 0x80 = 0 ↔ b.toNat < 128 := by
  have hall : ∀ n < 256, (n &&& 128 = 0 ↔ n < 128) := by decide +kernel
  rw [← UInt8.toNat_inj, UInt8.toNat_and]
  exact hall b.toNat b.toNat_lt

/-- What is read of a number from a byte on, with the groups before it in a word. -/
inductive Continues (region : Bytes) (offset index : Nat) (word : UInt64) :
    Except Stop (UInt64 × Nat) → Except DecodeError Nat × Bytes → Prop
  | read {result : UInt64} {n next : Nat} (hresult : result.toNat = word.toNat + n * 2 ^ (7 * index))
    (hlow : offset ≤ next) (hhigh : next ≤ region.length) :
    Continues region offset index word (.ok (result, next)) (.ok n, region.drop next)
  | refused (e : DecodeError) (rest : Bytes) :
    Continues region offset index word (.error (.failed (.decode e))) (.error e, rest)

/-- No group is moved out of a word of 64 bits. -/
theorem group_mul_lt {group index : Nat} (hindex : index ≤ 9) (hgroup : group < 128)
    (hover : ¬ (index = 9 ∧ 1 < group)) : group * 2 ^ (7 * index) < 2 ^ 64 := by
  rcases Nat.lt_or_ge index 9 with hlt | hge
  · calc group * 2 ^ (7 * index) < 128 * 2 ^ (7 * index) :=
        Nat.mul_lt_mul_of_pos_right hgroup (Nat.two_pow_pos _)
      _ = 2 ^ (7 + 7 * index) := (Nat.pow_add 2 7 (7 * index)).symm
      _ ≤ 2 ^ 64 := Nat.pow_le_pow_right Nat.two_pos (by omega)
  · obtain rfl : index = 9 := by omega
    omega

theorem varintFrom_end {rounds index : Nat} {word : UInt64} (h : region[offset]? = none) :
    varintFrom (rounds + 1) index word region offset
      = .error (.failed (.decode (.numberTruncated index))) := by
  rw [varintFrom, h]

/-- One round at a byte of the region.  None of its steps stops the program. -/
theorem varintFrom_byte {rounds index : Nat} {word : UInt64} {b : UInt8}
    (h : region[offset]? = some b) (hoffset : offset + 1 < positionLimit) (hindex : index ≤ 9) :
    varintFrom (rounds + 1) index word region offset
      = if index = 9 ∧ 1 < (b &&& 0x7F).toUInt64 then .error (.failed (.decode .numberOverflow))
        else
          let word := word ||| (b &&& 0x7F).toUInt64 <<< UInt64.ofNat (7 * index)
          if b &&& 0x80 = 0 then .ok (word, offset + 1)
          else varintFrom rounds (index + 1) word region (offset + 1) := by
  have hnext : Machine.unsigned 8 (offset + 1) = .ok (offset + 1) := if_pos hoffset
  have hplaces : ∀ group, Machine.shiftLeft group (7 * index)
      = .ok (group <<< UInt64.ofNat (7 * index)) := fun _ => if_pos (by omega)
  rw [varintFrom, h]
  simp only [hnext, hplaces]
  rfl

theorem varintFrom_continues (hregion : region.length < positionLimit) {rounds : Nat} :
    ∀ {index offset : Nat} {word : UInt64}, rounds + index = 10 → offset ≤ region.length →
      word.toNat < 2 ^ (7 * index) →
      Continues region offset index word (varintFrom rounds index word region offset)
        (Varint.decodeFrom index (region.drop offset)) := by
  induction rounds with
  | zero =>
    intro index offset word hrounds _ _
    obtain rfl : index = 10 := by omega
    cases region.drop offset with
    | nil => exact .refused _ _
    | cons b rest => exact .refused _ _
  | succ rounds ih =>
    intro index offset word hrounds hoffset hword
    have hindex : index ≠ 10 := by omega
    cases hdrop : region.drop offset with
    | nil =>
      rw [varintFrom_end (List.getElem?_eq_none (List.drop_eq_nil_iff.1 hdrop)),
        Varint.decodeFrom, if_neg hindex]
      exact .refused _ _
    | cons b rest =>
      have hlt : offset < region.length := by
        rw [← Nat.not_le, ← List.drop_eq_nil_iff, hdrop]
        exact List.cons_ne_nil b rest
      have hget : region[offset]? = some b := by
        rw [← List.head?_drop, hdrop]
        rfl
      have hrest : rest = region.drop (offset + 1) := by
        rw [← List.tail_drop, hdrop]
        rfl
      have hgroup := toNat_group b
      rw [varintFrom_byte hget (by omega) (by omega), Varint.decodeFrom, if_neg hindex]
      by_cases hover : index = 9 ∧ 1 < b.toNat % 128
      · rw [if_pos (by rwa [UInt64.lt_iff_toNat_lt, hgroup]), if_pos hover]
        exact .refused _ _
      · rw [if_neg (by rwa [UInt64.lt_iff_toNat_lt, hgroup]), if_neg hover]
        have hb : b.toNat % 128 < 128 := Nat.mod_lt _ (by decide)
        have hinsert := toNat_insert (by omega) hword
          (hgroup ▸ group_mul_lt (by omega) hb hover)
        rw [hgroup] at hinsert
        generalize word ||| (b &&& 0x7F).toUInt64 <<< UInt64.ofNat (7 * index) = filled
          at hinsert ⊢
        by_cases hlast : b.toNat < 128
        · simp only [if_pos ((high_eq_zero_iff b).2 hlast), if_pos hlast, hrest]
          rw [Nat.mod_eq_of_lt hlast] at hinsert
          exact .read hinsert (Nat.le_succ offset) hlt
        · have hpow : 2 ^ (7 * (index + 1)) = 128 * 2 ^ (7 * index) := by
            rw [Nat.mul_succ, Nat.pow_add, Nat.mul_comm]
          have hmul := Nat.mul_le_mul_right (2 ^ (7 * index)) (Nat.le_of_lt_succ hb)
          have hfilled : filled.toNat < 2 ^ (7 * (index + 1)) := by omega
          have hnext := ih (by omega) hlt hfilled
          simp only [if_neg (mt (high_eq_zero_iff b).1 hlast), if_neg hlast, hrest]
          generalize Varint.decodeFrom (index + 1) (region.drop (offset + 1)) = decoded at hnext ⊢
          generalize varintFrom rounds (index + 1) filled region (offset + 1) = checked at hnext ⊢
          cases hnext with
          | read hresult hlow hhigh =>
            refine .read ?_ (Nat.le_of_succ_le hlow) hhigh
            rw [hresult, hinsert, hpow, Nat.add_mul, Nat.add_assoc, Nat.mul_comm 128,
              Nat.mul_comm 128, Nat.mul_assoc, Nat.mul_comm 128]
          | refused e rest => exact .refused e rest

theorem mirrors_varint (h : Inside region offset) :
    Mirrors region offset varint Reader.varint := by
  have hcontinues : Continues region offset 0 0 (varintFrom 10 0 0 region offset)
      (Varint.decodeFrom 0 (region.drop offset)) :=
    varintFrom_continues h.length_lt rfl h.offset_le (by decide)
  have hvarint : varint region offset = (varintFrom 10 0 0 region offset).map
      fun read => (read.1.toNat, read.2) := by
    show Checked.bind varintWord _ region offset = _
    rw [Checked.bind, varintWord]
    cases varintFrom 10 0 0 region offset <;> rfl
  have hreader : Reader.varint (.within region offset)
      = ((Varint.decodeFrom 0 (region.drop offset)).1, ⟨offset + ((region.drop offset).length
        - (Varint.decodeFrom 0 (region.drop offset)).2.length),
        (Varint.decodeFrom 0 (region.drop offset)).2⟩) := rfl
  rw [Mirrors, hvarint, hreader]
  generalize Varint.decodeFrom 0 (region.drop offset) = decoded at hcontinues ⊢
  generalize varintFrom 10 0 0 region offset = checked at hcontinues ⊢
  cases hcontinues with
  | @read result n next hresult hlow hhigh =>
    have hn : result.toNat = n := by simpa using hresult
    have hnext : offset + ((region.drop offset).length - (region.drop next).length) = next := by
      rw [List.length_drop, List.length_drop]
      omega
    rw [Except.map, hn, hnext]
    exact .read n ⟨hhigh, h.length_lt⟩
  | refused e rest => exact .refused e _

/-- The last bit of a word says whether the others are inverted, and no step of that overflows. -/
theorem unfold_eq (word : UInt64) :
    ∃ i, unfold word = .ok i ∧ i.toInt = Varint.unfold word.toNat := by
  have hlt := word.toNat_lt
  have hhalf : (word >>> 1).toBitVec.toNat = word.toNat / 2 := by
    show (word >>> 1).toNat = _
    rw [UInt64.toNat_shiftRight]
    exact Nat.shiftRight_eq_div_pow _ 1
  have hhigh : (word >>> 1).toInt64.toInt = (word.toNat / 2 : Nat) := by
    show (word >>> 1).toBitVec.toInt = _
    rw [BitVec.toInt_eq_toNat_of_lt (by omega), hhalf]
  have hlow : (word &&& 1).toNat = word.toNat % 2 := by
    rw [UInt64.toNat_and]
    exact Nat.and_one_is_mod word.toNat
  rw [Varint.unfold]
  by_cases heven : word.toNat % 2 = 0
  · have hbit : word &&& 1 = 0 := UInt64.toNat_inj.1 (hlow.trans heven)
    refine ⟨(word >>> 1).toInt64 ^^^ 0, by rw [unfold, hbit]; rfl, ?_⟩
    rw [Int64.xor_zero, hhigh, if_pos heven]
  · have hbit : word &&& 1 = 1 := UInt64.toNat_inj.1 (hlow.trans (Nat.mod_two_ne_zero.1 heven))
    refine ⟨(word >>> 1).toInt64 ^^^ -1, by rw [unfold, hbit]; rfl, ?_⟩
    rw [Int64.xor_neg_one, Int64.toInt_not, hhigh, if_neg heven]
    exact Int.bmod_eq_of_le (by omega) (by omega)

theorem varintInt_eq : varintInt = (varint >>= fun n => Pure.pure (Varint.unfold n)) := by
  funext region offset
  show Checked.bind varintWord _ region offset = Checked.bind (Checked.bind varintWord _) _ _ _
  rw [Checked.bind, Checked.bind, Checked.bind]
  cases varintWord region offset with
  | error stop => rfl
  | ok read =>
    obtain ⟨i, hi, hint⟩ := unfold_eq read.1
    show (step (unfold read.1) >>= fun i => Pure.pure i.toInt) region read.2
      = .ok (Varint.unfold read.1.toNat, read.2)
    rw [hi, ← hint]
    rfl

theorem mirrors_varintInt (h : Inside region offset) :
    Mirrors region offset varintInt Reader.varintInt := by
  rw [varintInt_eq]
  exact (mirrors_varint h).ret Varint.unfold

theorem mirrors_withLength (h : Inside region offset) :
    Mirrors region offset withLength Reader.withLength :=
  (mirrors_varint h).bind fun n _ _ hnext => mirrors_take hnext n

theorem mirrors_text (h : Inside region offset) :
    Mirrors region offset text Reader.text :=
  (mirrors_rest h).bind fun bytes _ _ hnext => mirrors_check hnext (Reader.textOf bytes)

end Checked

end RdfIndex
