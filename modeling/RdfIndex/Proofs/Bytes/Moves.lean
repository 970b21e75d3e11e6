import RdfIndex.Proofs.Bytes.Reads

/-!
# Readers after some bytes more

A cursor counts the bytes before it, and a read compares the end of what it takes with the greatest
position.  Nothing else of a read can depend on what stands before its region.  `Moves position c r`
says that nothing does: after `position` bytes more, `r` reads at `c` what it reads without them,
and fails as it fails without them.  Readers in turn move if each of them does (`Moves.bind`).

Fields of a fixed width move in every region that a machine can hold.  Bytes with their length move
unless that length reaches beyond the region up to where there are no positions
(`moves_withLength`).  Then they are refused after the bytes (`withLength_after`), and they are
refused without them as well, if for another cause (`withLength_of_overrun`).
-/

namespace RdfIndex

/-- Byte strings of a machine are shorter than this: half of all positions. -/
def sizeLimit : Nat := 0x8000000000000000

namespace Cursor

/-- The cursor with some bytes more before its region. -/
def after (position : Nat) (c : Cursor) : Cursor := ⟨position + c.offset, c.rest⟩

/-- A machine can hold the region with some bytes more before it. -/
def Fits (position : Nat) (c : Cursor) : Prop :=
  position + (c.offset + c.rest.length) < sizeLimit

/-- What is read of a region moves the cursor and leaves the end of the region where it is. -/
theorem Fits.moved {position count : Nat} {c : Cursor} {rest : Bytes} (h : c.Fits position)
    (hcount : count + rest.length ≤ c.rest.length) : Fits position ⟨c.offset + count, rest⟩ := by
  show position + (c.offset + count + rest.length) < sizeLimit
  rw [Fits] at h
  omega

end Cursor

namespace Reader

variable {α β : Type} {position : Nat} {c : Cursor}

/-- The outcome after some bytes more and the outcome without them. -/
inductive Matches (position : Nat) :
    Except DecodeError α × Cursor → Except DecodeError α × Cursor → Prop
  /-- The same is read, up to the same place of the region. -/
  | read (a : α) {c : Cursor} (h : c.Fits position) :
    Matches position (.ok a, c.after position) (.ok a, c)
  /-- Both fail for the same cause. -/
  | refused (e : DecodeError) (c c' : Cursor) : Matches position (.error e, c) (.error e, c')

/-- A reader does after some bytes more what it does without them. -/
def Moves (position : Nat) (c : Cursor) (r : Reader α) : Prop :=
  Matches position (r (c.after position)) (r c)

/-! ## In turn -/

theorem moves_pure (h : c.Fits position) (a : α) : Moves position c (Pure.pure a) :=
  .read a h

theorem Moves.bind {r : Reader α} {f : α → Reader β} (hr : Moves position c r)
    (hf : ∀ a c', r c = (.ok a, c') → c'.Fits position → Moves position c' (f a)) :
    Moves position c (r >>= f) := by
  show Matches position (Reader.bind r f (c.after position)) (Reader.bind r f c)
  rw [Reader.bind, Reader.bind]
  rw [Moves] at hr
  generalize r (c.after position) = moved at hr
  generalize hread : r c = outcome at hr
  cases hr with
  | read a h => exact hf a _ hread h
  | refused e c c' => exact .refused e c c'

/-- What is read without the bytes before is read with them. -/
theorem Moves.of_ok {r : Reader α} {a : α} {c' : Cursor} (h : Moves position c r)
    (hread : r c = (.ok a, c')) :
    r (c.after position) = (.ok a, c'.after position) ∧ c'.Fits position := by
  rw [Moves, hread] at h
  generalize r (c.after position) = moved at h ⊢
  cases h with
  | read a h => exact ⟨rfl, h⟩

theorem Moves.ret {r : Reader α} (h : Moves position c r) (f : α → β) :
    Moves position c (r >>= fun a => Pure.pure (f a)) :=
  h.bind fun a _ _ h => moves_pure h (f a)

theorem Moves.map {r : Reader α} (h : Moves position c r) (f : α → β) :
    Moves position c (f <$> r) :=
  h.ret f

theorem Moves.ite {p : Prop} [Decidable p] {r r' : Reader α} (h : Moves position c r)
    (h' : Moves position c r') : Moves position c (if p then r else r') := by
  split
  · exact h
  · exact h'

theorem moves_check (h : c.Fits position) (result : Except DecodeError α) :
    Moves position c (check result) := by
  cases result with
  | ok a => exact .read a h
  | error e => exact .refused e _ _

theorem moves_fail (e : DecodeError) : Moves position c (fail e : Reader α) := .refused e _ _

theorem moves_found (h : c.Fits position) (entry : Option α) (missing : DecodeError) :
    Moves position c (found entry missing) := by
  cases entry with
  | some a => exact .read a h
  | none => exact .refused missing _ _

/-! ## Bytes and numbers -/

/-- Bytes are taken or refused alike as long as their end is a position. -/
theorem moves_take (h : c.Fits position) {count : Nat}
    (hstop : position + (c.offset + count) < positionLimit) : Moves position c (take count) := by
  have hmoved : ¬ positionLimit ≤ position + c.offset + count := by omega
  have hstart : ¬ positionLimit ≤ c.offset + count := by omega
  show Matches position (if positionLimit ≤ position + c.offset + count then _ else
    if c.rest.length < count then _ else _) (if positionLimit ≤ c.offset + count then _ else
    if c.rest.length < count then _ else _)
  rw [if_neg hmoved, if_neg hstart]
  by_cases hshort : c.rest.length < count
  · rw [if_pos hshort, if_pos hshort]
    exact .refused _ _ _
  · rw [if_neg hshort, if_neg hshort]
    have hread := Matches.read (c.rest.take count)
      (h.moved (show count + (c.rest.drop count).length ≤ _ by rw [List.length_drop]; omega))
    rwa [Cursor.after, ← Nat.add_assoc] at hread

/-- Fields of a fixed width end at a position. -/
theorem moves_field (h : c.Fits position) {width : Nat} (hwidth : width ≤ 8) :
    Moves position c (take width) := by
  refine moves_take h ?_
  rw [Cursor.Fits, sizeLimit] at h
  rw [positionLimit]
  omega

theorem moves_rest (h : c.Fits position) : Moves position c rest := by
  have hfits : Cursor.Fits position ⟨c.offset + c.rest.length, []⟩ := h.moved (Nat.le_refl _)
  have hread := Matches.read c.rest hfits
  rwa [Cursor.after, ← Nat.add_assoc] at hread

theorem moves_word (h : c.Fits position) {width : Nat} (hwidth : width ≤ 8) :
    Moves position c (word width) :=
  (moves_field h hwidth).ret Bytes.ofBigEndian

theorem moves_int (h : c.Fits position) {width : Nat} (hwidth : width ≤ 8) :
    Moves position c (int width) :=
  (moves_field h hwidth).ret Bytes.toInt

theorem moves_hash (h : c.Fits position) : Moves position c hash :=
  (moves_word h (by decide)).ret UInt16.ofNat

theorem moves_varint (h : c.Fits position) : Moves position c varint := by
  have hle : (Varint.decode c.rest).2.length ≤ c.rest.length := length_decodeFrom_le 0 c.rest
  have hfits := h.moved (Nat.le_of_eq (Nat.sub_add_cancel hle))
  have hafter : varint (c.after position) = ((varint c).1, (varint c).2.after position) :=
    congrArg (fun offset => ((varint c).1, Cursor.mk offset (varint c).2.rest))
      (Nat.add_assoc position c.offset _)
  rw [Moves, hafter]
  cases hread : (varint c).1 with
  | error e =>
    rw [show varint c = (.error e, (varint c).2) from Prod.ext hread rfl]
    exact .refused e _ _
  | ok n =>
    rw [show varint c = (.ok n, (varint c).2) from Prod.ext hread rfl]
    exact .read n hfits

theorem moves_varintInt (h : c.Fits position) : Moves position c varintInt :=
  (moves_varint h).ret Varint.unfold

theorem moves_text (h : c.Fits position) : Moves position c text :=
  (moves_rest h).bind fun bytes _ _ h => moves_check h (textOf bytes)

/-! ## Lengths -/

/-- Where bytes with their length would end, if that is after the end of the region. -/
def overrun? (c : Cursor) : Option Nat :=
  match varint c with
  | (.ok n, c) => if c.rest.length < n then some (c.offset + n) else none
  | (.error _, _) => none

/-- Bytes with their length are read alike, unless their end is no position. -/
theorem moves_withLength (h : c.Fits position)
    (hover : ∀ stop ∈ overrun? c, position + stop < positionLimit) :
    Moves position c withLength := by
  refine (moves_varint h).bind fun n c' hread h => moves_take h ?_
  rw [overrun?, hread] at hover
  by_cases hshort : c'.rest.length < n
  · exact hover _ (if_pos hshort)
  · rw [Cursor.Fits, sizeLimit] at h
    rw [positionLimit]
    omega

/-- Bytes whose end is no position are refused as such. -/
theorem withLength_after {stop : Nat} (h : c.Fits position) (hover : overrun? c = some stop)
    (hstop : positionLimit ≤ position + stop) :
    ∃ c', withLength (c.after position) = (.error .positionOverflow, c') := by
  have hmoves := moves_varint h
  rw [overrun?] at hover
  rw [Moves] at hmoves
  generalize hmoved : varint (c.after position) = moved at hmoves
  generalize varint c = outcome at hmoves hover
  cases hmoves with
  | refused e c c' => cases hover
  | @read n c' h =>
    have hend : c'.offset + n = stop := by
      by_cases hshort : c'.rest.length < n
      · exact Option.some.inj ((if_pos hshort).symm.trans hover)
      · cases (if_neg hshort).symm.trans hover
    refine ⟨c'.after position, ?_⟩
    have hlimit : positionLimit ≤ position + c'.offset + n := by omega
    rw [withLength, bind_ok hmoved]
    exact if_pos hlimit

/-- Bytes that would end after the region are refused where they stand, as cut short or as without
a position for their end. -/
theorem withLength_of_overrun {stop : Nat} (hover : overrun? c = some stop) :
    ∃ e c', withLength c = (.error e, c')
      ∧ (e = .positionOverflow ∨ ∃ need left, e = .truncated need left) := by
  rw [overrun?] at hover
  generalize hread : varint c = outcome at hover
  obtain ⟨n, c'⟩ := outcome
  cases n with
  | error e => cases hover
  | ok n =>
    have hshort : c'.rest.length < n :=
      Decidable.byContradiction fun hlong => nomatch (if_neg hlong).symm.trans hover
    rw [withLength, bind_ok hread, take, if_pos hshort]
    split
    · exact ⟨_, _, rfl, .inl rfl⟩
    · exact ⟨_, _, rfl, .inr ⟨_, _, rfl⟩⟩

end Reader

end RdfIndex
