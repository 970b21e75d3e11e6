import Mathlib.Data.List.FinRange
import RdfIndex.Proofs.Vocabulary.Collisions

/-!
# Single bytes in a hash of two lanes

The table of the hash is shuffled by swaps, so it holds every byte once (`nodup_table`).  A step of
a lane is then injective, both in the lane that it starts from and in the byte that it takes.  So a
changed byte changes the lane when it is reached, and no later byte undoes the change
(`lane_ne`).  Either lane reaches each byte of the string, whichever way it walks, so that both
bytes of the hash tell the two strings apart (`hash16_oneByteApart`).
-/

namespace RdfIndex

/-- Byte strings of one length that differ at exactly one place. -/
def OneByteApart (x y : Bytes) : Prop := x.length = y.length ∧ ∃! i : Nat, x[i]? ≠ y[i]?

/-- What stands before and after the byte that differs is the same. -/
theorem OneByteApart.parts {x y : Bytes} (h : OneByteApart x y) : ∃ before a b after,
    a ≠ b ∧ x = before ++ a :: after ∧ y = before ++ b :: after := by
  obtain ⟨hlength, i, hi, hunique⟩ := h
  have hsame : ∀ j, j ≠ i → x[j]? = y[j]? := fun j hj =>
    Decidable.byContradiction fun hne => hj (hunique j hne)
  have hx : i < x.length := Nat.lt_of_not_le fun hle =>
    hi ((List.getElem?_eq_none hle).trans (List.getElem?_eq_none (hlength ▸ hle)).symm)
  have hy : i < y.length := hlength ▸ hx
  have hbefore : x.take i = y.take i := List.ext_getElem? fun j => by
    rw [List.getElem?_take, List.getElem?_take]
    split
    · exact hsame j (by omega)
    · rfl
  have hafter : x.drop (i + 1) = y.drop (i + 1) := List.ext_getElem? fun j => by
    rw [List.getElem?_drop, List.getElem?_drop]
    exact hsame _ (by omega)
  refine ⟨x.take i, x[i], y[i], x.drop (i + 1), fun heq => hi ?_, ?_, ?_⟩
  · rw [List.getElem?_eq_getElem hx, List.getElem?_eq_getElem hy, heq]
  · rw [← List.drop_eq_getElem_cons hx, List.take_append_drop]
  · rw [hbefore, hafter, ← List.drop_eq_getElem_cons hy, List.take_append_drop]

theorem oneByteApart_of_parts {a b : UInt8} (hne : a ≠ b) (before after : Bytes) :
    OneByteApart (before ++ a :: after) (before ++ b :: after) := by
  have hsame : ∀ j, j ≠ before.length →
      (before ++ a :: after)[j]? = (before ++ b :: after)[j]? := fun j hj => by
    rcases Nat.lt_or_gt_of_ne hj with hlt | hgt
    · rw [List.getElem?_append_left hlt, List.getElem?_append_left hlt]
    · obtain ⟨k, rfl⟩ : ∃ k, j = before.length + (k + 1) := ⟨j - before.length - 1, by omega⟩
      simp [List.getElem?_append_right]
  exact ⟨by simp, before.length, by simpa using hne,
    fun j hj => Decidable.byContradiction fun hne => hj (hsame j hne)⟩

namespace Pearson

/-! ## The table -/

theorem perm_swapIfInBounds (t : Vector UInt8 256) (i j : Nat) :
    (t.swapIfInBounds i j).toList.Perm t.toList := by
  rw [← Vector.perm_iff_toList_perm, Vector.perm_iff_toArray_perm, Vector.toArray_swapIfInBounds,
    Array.swapIfInBounds_def]
  split
  · split
    · exact Array.swap_perm _ _
    · exact Array.Perm.refl _
  · exact Array.Perm.refl _

/-- Whatever is drawn, shuffling moves the bytes of the table and changes none of them. -/
theorem perm_shuffle (i : Nat) : ∀ (s : UInt32) (t : Vector UInt8 256),
    (shuffle i s t).toList.Perm t.toList := by
  induction i with
  | zero => exact fun _ _ => List.Perm.refl _
  | succ i ih => exact fun s t => (ih _ _).trans (perm_swapIfInBounds t _ _)

theorem ofNat_injective : Function.Injective fun i : Fin 256 => UInt8.ofNat i := by
  intro i j h
  have hval := congrArg UInt8.toNat h
  simp only [UInt8.toNat_ofNat'] at hval
  omega

theorem nodup_table : table.toList.Nodup := by
  refine (perm_shuffle 255 seed _).nodup_iff.2 ?_
  rw [Vector.toList_ofFn]
  exact List.nodup_ofFn.2 ofNat_injective

/-- A table that holds no byte twice is injective. -/
theorem get_injective {t : Vector UInt8 256} (h : t.toList.Nodup) : Function.Injective t.get := by
  intro i j heq
  have hi : i.val < t.toList.length := by rw [Vector.length_toList]; exact i.isLt
  have hj : j.val < t.toList.length := by rw [Vector.length_toList]; exact j.isLt
  have hget : t.toList[i.val] = t.toList[j.val] := heq
  exact Fin.ext ((List.getElem_inj h).1 hget)

/-! ## Lanes -/

variable {lane₁ lane₂ a b : UInt8}

theorem xor_eq_of_step_eq (h : step lane₁ a = step lane₂ b) : lane₁ ^^^ a = lane₂ ^^^ b := by
  rw [step, step] at h
  exact UInt8.toFin_inj.1 (get_injective nodup_table h)

/-- Lanes that differ do so after any bytes. -/
theorem foldl_step_ne (bytes : Bytes) : ∀ {lane₁ lane₂ : UInt8}, lane₁ ≠ lane₂ →
    bytes.foldl step lane₁ ≠ bytes.foldl step lane₂ := by
  induction bytes with
  | nil => exact fun hne => hne
  | cons b bytes ih =>
    intro lane₁ lane₂ hne
    rw [List.foldl_cons, List.foldl_cons]
    exact ih fun h => hne ((UInt8.xor_left_inj b).1 (xor_eq_of_step_eq h))

/-- Byte strings that differ in a byte and nowhere else have different lanes. -/
theorem lane_ne (hne : a ≠ b) (before after : Bytes) :
    lane (before ++ a :: after) ≠ lane (before ++ b :: after) := by
  rw [lane, lane, List.foldl_append, List.foldl_append, List.foldl_cons, List.foldl_cons]
  exact foldl_step_ne after fun h => hne ((UInt8.xor_right_inj _).1 (xor_eq_of_step_eq h))

/-! ## The two bytes of the hash -/

def highByte (hash : UInt16) : UInt8 := (hash >>> 8).toUInt8

def lowByte (hash : UInt16) : UInt8 := hash.toUInt8

def swapBytes (hash : UInt16) : UInt16 := hash <<< 8 ||| hash >>> 8

theorem toNat_joined (a b : UInt8) :
    (a.toUInt16 <<< 8 ||| b.toUInt16).toNat = 256 * a.toNat + b.toNat := by
  have ha := a.toNat_lt
  have hshift : (a.toUInt16 <<< 8).toNat = 2 ^ 8 * a.toNat := by
    rw [UInt16.toNat_shiftLeft, UInt8.toNat_toUInt16, Nat.shiftLeft_eq]
    show a.toNat * 2 ^ 8 % 2 ^ 16 = _
    omega
  rw [UInt16.toNat_or, hshift, UInt8.toNat_toUInt16, ← Nat.two_pow_add_eq_or_of_lt b.toNat_lt]

theorem toNat_shiftRight_eight (hash : UInt16) : (hash >>> 8).toNat = hash.toNat / 256 := by
  rw [UInt16.toNat_shiftRight]
  exact Nat.shiftRight_eq_div_pow hash.toNat 8

theorem toNat_highByte (hash : UInt16) : (highByte hash).toNat = hash.toNat / 256 := by
  have hlt := hash.toNat_lt
  rw [highByte, UInt16.toNat_toUInt8, toNat_shiftRight_eight]
  omega

theorem toNat_lowByte (hash : UInt16) : (lowByte hash).toNat = hash.toNat % 256 :=
  UInt16.toNat_toUInt8 hash

theorem swapBytes_eq (hash : UInt16) :
    swapBytes hash = (lowByte hash).toUInt16 <<< 8 ||| (highByte hash).toUInt16 := by
  have hlt := hash.toNat_lt
  have hlow : (hash <<< 8).toNat = 2 ^ 8 * (hash.toNat % 256) := by
    rw [UInt16.toNat_shiftLeft, Nat.shiftLeft_eq]
    show hash.toNat * 2 ^ 8 % 2 ^ 16 = _
    omega
  rw [← UInt16.toNat_inj, toNat_joined, toNat_lowByte, toNat_highByte, swapBytes, UInt16.toNat_or,
    hlow, toNat_shiftRight_eight, ← Nat.two_pow_add_eq_or_of_lt (by omega)]

@[simp] theorem highByte_hash16 (bytes : Bytes) : highByte (hash16 bytes) = lane bytes := by
  have hlow := (lane bytes.reverse).toNat_lt
  rw [← UInt8.toNat_inj, toNat_highByte, hash16, toNat_joined]
  omega

@[simp] theorem lowByte_hash16 (bytes : Bytes) :
    lowByte (hash16 bytes) = lane bytes.reverse := by
  have hlow := (lane bytes.reverse).toNat_lt
  rw [← UInt8.toNat_inj, toNat_lowByte, hash16, toNat_joined]
  omega

theorem hash16_reverse (bytes : Bytes) : hash16 bytes.reverse = swapBytes (hash16 bytes) := by
  rw [swapBytes_eq, highByte_hash16, lowByte_hash16, hash16, List.reverse_reverse]

variable {x y : Bytes}

theorem highByte_ne (h : OneByteApart x y) : highByte (hash16 x) ≠ highByte (hash16 y) := by
  obtain ⟨before, a, b, after, hne, rfl, rfl⟩ := h.parts
  rw [highByte_hash16, highByte_hash16]
  exact lane_ne hne before after

/-- The backward lane comes to the byte that differs from its other side. -/
theorem lowByte_ne (h : OneByteApart x y) : lowByte (hash16 x) ≠ lowByte (hash16 y) := by
  obtain ⟨before, a, b, after, hne, rfl, rfl⟩ := h.parts
  rw [lowByte_hash16, lowByte_hash16]
  simp only [List.reverse_append, List.reverse_cons, List.append_assoc, List.singleton_append]
  exact lane_ne hne after.reverse before.reverse

end Pearson

/-! ## Entries of a vocabulary -/

variable {α : Type} {text : α → String}

theorem Collision.IsAmong.textHash_eq {c : Collision} {as : List α} (h : c.IsAmong text as) :
    textHash c.kept = textHash c.refused := by
  obtain ⟨kept, _, refused, _, _, hc, hkept, hrefused⟩ := h
  rw [hc]
  exact hkept.trans hrefused.symm

/-- Entries whose texts have the same hash are not one byte apart. -/
theorem not_oneByteApart_of_insert [DecidableEq α] {t : HashTable α text} {a : α} {c : Collision}
    (h : t.insert a = .error c) : ¬ OneByteApart (Utf8.bytes c.kept) (Utf8.bytes c.refused) := by
  intro hapart
  rcases t.insert_cases a with ⟨t', hok, _⟩ | ⟨c', herror, hamong⟩
  · rw [hok] at h
    cases h
  · rw [herror] at h
    cases h
    exact Pearson.highByte_ne hapart (congrArg Pearson.highByte hamong.textHash_eq)

/-- A hash of two lanes tells byte strings apart that differ in a single byte, by its high byte as
well as by its low byte.  So no entry of a vocabulary is ever refused for another one that is a
single byte apart from it.  The hash of a byte string backwards has the two bytes swapped. -/
theorem Pearson.hash16_oneByteApart :
    (∀ x y, OneByteApart x y → highByte (hash16 x) ≠ highByte (hash16 y)
      ∧ lowByte (hash16 x) ≠ lowByte (hash16 y))
    ∧ (∀ (α : Type) (text : α → String) [DecidableEq α] (t : HashTable α text) (a : α)
      (c : Collision), t.insert a = .error c →
        ¬ OneByteApart (Utf8.bytes c.kept) (Utf8.bytes c.refused))
    ∧ ∀ x, hash16 x.reverse = swapBytes (hash16 x) :=
  ⟨fun _ _ h => ⟨highByte_ne h, lowByte_ne h⟩, fun _ _ _ _ _ _ h => not_oneByteApart_of_insert h,
    hash16_reverse⟩

/-- A table of languages with one entry. -/
def oneLanguage : HashTable String id := HashTable.empty.push "aa-KT" rfl

theorem insert_oneLanguage :
    oneLanguage.insert "aa-PP" = .error ⟨textHash "aa-PP", "aa-KT", "aa-PP"⟩ := by
  have hkept : oneLanguage.ofHash? (textHash "aa-PP") = some "aa-KT" := by decide +kernel
  exact (HashTable.insert_of_ofHash? hkept).trans (if_neg (by decide))

theorem Pearson.hash16_oneByteApart_languages :
    (OneByteApart (Utf8.bytes "en") (Utf8.bytes "es")
      ∧ highByte (hash16 (Utf8.bytes "en")) ≠ highByte (hash16 (Utf8.bytes "es"))
      ∧ lowByte (hash16 (Utf8.bytes "en")) ≠ lowByte (hash16 (Utf8.bytes "es")))
    ∧ oneLanguage.insert "aa-PP" = .error ⟨textHash "aa-PP", "aa-KT", "aa-PP"⟩
    ∧ ¬ OneByteApart (Utf8.bytes "aa-KT") (Utf8.bytes "aa-PP") := by
  obtain ⟨hlanes, hinsert, _⟩ := hash16_oneByteApart
  have hapart : OneByteApart (Utf8.bytes "en") (Utf8.bytes "es") :=
    oneByteApart_of_parts (show (0x6E : UInt8) ≠ 0x73 by decide) [0x65] []
  exact ⟨⟨hapart, hlanes _ _ hapart⟩, insert_oneLanguage,
    hinsert _ _ oneLanguage _ _ insert_oneLanguage⟩

end RdfIndex
