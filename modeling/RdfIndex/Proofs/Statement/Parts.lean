import Mathlib.Data.List.Basic
import RdfIndex.Proofs.Digest.Length
import RdfIndex.Proofs.Results
import RdfIndex.Statement.Cell

/-!
# Parts of identifiers

Every derived identifier has the size of the layout.  Its key hash in a role and what the key hash
leaves are of the widths of the role, and joined they are the identifier again.  Parts of known
widths, one after the other in the order of the roles, are found at their places
(`part_of_flatMap`).
-/

namespace RdfIndex

/-! ## Sizes -/

theorem Roles.length_pack (nibble : Bool) (r : Roles) (bytes : Bytes) :
    (r.pack nibble bytes).length = bytes.length := by
  cases bytes with
  | nil => rfl
  | cons first rest => rfl

/-- What is packed is unpacked, whatever the bytes were before. -/
theorem Roles.unpack_pack (nibble : Bool) (r : Roles) {bytes : Bytes} (h : bytes ≠ []) :
    Roles.unpack nibble (r.pack nibble bytes) = r := by
  have hlt := r.descriptor_lt
  cases bytes with
  | nil => exact absurd rfl h
  | cons first rest =>
    have hdescriptor : (if nibble then (r.packByte nibble first).toNat / 16
        else (r.packByte nibble first).toNat % 16) = r.descriptor := by
      cases nibble with
      | true =>
        simp only [packByte, if_true, UInt8.toNat_ofNat']
        omega
      | false =>
        simp only [packByte, Bool.false_eq_true, if_false, UInt8.toNat_ofNat']
        omega
    show ofDescriptor (if nibble then (r.packByte nibble first).toNat / 16
      else (r.packByte nibble first).toNat % 16) = r
    rw [hdescriptor, ofDescriptor_descriptor]

namespace IdFactory

theorem length_derive (f : IdFactory) (e : Encoded) : (f.derive e).bytes.length = f.config.size :=
  (Roles.length_pack _ _ _).trans (TruncatedDigest.length_hash _ _)

end IdFactory

theorem Role.mem_all (role : Role) : role ∈ Role.all := by
  cases role <;> decide

/-- Widths that fit are from one to the size of an identifier. -/
theorem KeyWidths.bounds_of_fit {w : KeyWidths} {idSize : Nat} (h : w.unfit? idSize = none)
    (role : Role) : 1 ≤ w.get role ∧ w.get role ≤ idSize := by
  have hrole := List.find?_eq_none.1 h role (Role.mem_all role)
  simp only [Bool.or_eq_true, beq_iff_eq, decide_eq_true_eq, not_or] at hrole
  omega

namespace Order

theorem mem_all (order : Order) : order ∈ Order.all := by
  cases order <;> decide

/-- All roles but the context are in every order. -/
theorem mem_roles (order : Order) {role : Role} (h : role ≠ .context) : role ∈ order.roles := by
  cases order <;> cases role <;> first | decide | exact absurd rfl h

theorem context_mem_roles {order : Order} (h : order.hasContext = true) :
    Role.context ∈ order.roles := by
  cases order <;> first | decide | cases h

end Order

/-! ## Parts one after the other -/

/-- The total width of some parts is the length of all of them together. -/
theorem length_flatMap_roles {part : Role → Bytes} {width : Role → Nat} {roles : List Role}
    (h : ∀ role ∈ roles, (part role).length = width role) :
    (roles.flatMap part).length = total width roles := by
  induction roles with
  | nil => rfl
  | cons role roles ih =>
    rw [List.flatMap_cons, List.length_append, total_cons, h role List.mem_cons_self,
      ih fun r hr => h r (List.mem_cons_of_mem _ hr)]

/-- The part of a role stands after the parts of the roles before it. -/
theorem part_of_flatMap {part : Role → Bytes} {width : Role → Nat} {role : Role} (rest : Bytes) :
    ∀ {roles : List Role}, (∀ r ∈ roles, (part r).length = width r) → role ∈ roles →
      ((roles.flatMap part ++ rest).drop (total width (roles.takeWhile (· != role)))).take
        (width role) = part role := by
  intro roles
  induction roles with
  | nil => intro _ hmem; cases hmem
  | cons r roles ih =>
    intro hwidth hmem
    have hr := hwidth r List.mem_cons_self
    by_cases heq : r = role
    · subst heq
      rw [List.takeWhile_cons_of_neg (by simp), total_nil, List.drop_zero, List.flatMap_cons,
        List.append_assoc, ← hr, List.take_left]
    · have hlater := (List.mem_cons.1 hmem).resolve_left (Ne.symm heq)
      rw [List.takeWhile_cons_of_pos (by simpa using heq), total_cons, List.flatMap_cons,
        List.append_assoc, ← hr, List.drop_append]
      have hdrop : (part r).drop ((part r).length + total width (roles.takeWhile (· != role)))
          = [] := List.drop_eq_nil_of_le (by omega)
      rw [hdrop, List.nil_append, Nat.add_sub_cancel_left]
      exact ih (fun s hs => hwidth s (List.mem_cons_of_mem _ hs)) hlater

/-- What is cut out for each role in turn is all that the roles have together. -/
theorem flatMap_parts (width : Role → Nat) {roles : List Role} (h : roles.Nodup) :
    ∀ bytes : Bytes, roles.flatMap (fun role =>
      (bytes.drop (total width (roles.takeWhile (· != role)))).take (width role))
        = bytes.take (total width roles) := by
  induction roles with
  | nil => exact fun _ => rfl
  | cons r roles ih =>
    intro bytes
    obtain ⟨hr, hnodup⟩ := List.nodup_cons.1 h
    have hfirst : (r :: roles).takeWhile (· != r) = [] :=
      List.takeWhile_cons_of_neg (by simp)
    have hlater : ∀ role ∈ roles,
        (bytes.drop (total width ((r :: roles).takeWhile (· != role)))).take (width role)
          = ((bytes.drop (width r)).drop (total width (roles.takeWhile (· != role)))).take
            (width role) := by
      intro role hrole
      have hne : r ≠ role := fun heq => hr (heq ▸ hrole)
      rw [List.takeWhile_cons_of_pos (by simpa using hne), total_cons, List.drop_drop]
    rw [List.flatMap_cons, hfirst, total_nil, List.drop_zero, total_cons, List.take_add,
      ← ih hnodup (bytes.drop (width r)), List.flatMap_congr hlater]

namespace Layout

/-! ## Rotations -/

theorem length_rotateLeft (n : Nat) (bytes : Bytes) :
    (rotateLeft n bytes).length = bytes.length := by
  rw [rotateLeft, List.length_append, List.length_drop, List.length_take]
  omega

theorem rotateRight_rotateLeft (n : Nat) (bytes : Bytes) :
    rotateRight n (rotateLeft n bytes) = bytes := by
  cases bytes with
  | nil => simp [rotateLeft, rotateRight]
  | cons b rest =>
    have hlt : n % (b :: rest).length < (b :: rest).length :=
      Nat.mod_lt _ (Nat.succ_pos rest.length)
    rw [rotateRight, length_rotateLeft, rotateLeft]
    have hlength : ((b :: rest).drop (n % (b :: rest).length)).length
        = (b :: rest).length - n % (b :: rest).length := List.length_drop
    rw [← hlength, List.drop_left, List.take_left, List.take_append_drop]

theorem length_rotateRight (n : Nat) (bytes : Bytes) :
    (rotateRight n bytes).length = bytes.length := by
  rw [rotateRight, List.length_append, List.length_drop, List.length_take]
  omega

theorem rotateLeft_rotateRight (n : Nat) (bytes : Bytes) :
    rotateLeft n (rotateRight n bytes) = bytes := by
  cases bytes with
  | nil => simp [rotateLeft, rotateRight]
  | cons b rest =>
    have hlt : n % (b :: rest).length < (b :: rest).length :=
      Nat.mod_lt _ (Nat.succ_pos rest.length)
    have hlength : ((b :: rest).drop ((b :: rest).length - n % (b :: rest).length)).length
        = n % (b :: rest).length := by
      rw [List.length_drop]
      omega
    rw [rotateLeft, length_rotateRight, rotateRight, List.drop_left' hlength,
      List.take_left' hlength, List.take_append_drop]

variable {l : Layout} {order : Order} {role : Role} {id : Identifier}

theorem width_bounds (l : Layout) (role : Role) :
    1 ≤ l.widths.get role ∧ l.widths.get role ≤ l.idSize :=
  KeyWidths.bounds_of_fit l.widths_fit role

theorem idSize_pos (l : Layout) : 0 < l.idSize := l.factory.config.size_pos

theorem length_defaultContext (l : Layout) : l.defaultContext.bytes.length = l.idSize := by
  rw [l.defaultContext_eq]
  exact l.factory.length_derive _

theorem length_keyHash (h : id.bytes.length = l.idSize) :
    (l.keyHash order role id).length = l.widths.get role := by
  have hwidth := l.width_bounds role
  rw [keyHash, List.length_take, rotated, length_rotateLeft]
  omega

theorem length_remainder (h : id.bytes.length = l.idSize) :
    (l.remainder order role id).length = l.remainderWidth role := by
  rw [remainder, List.length_drop, rotated, length_rotateLeft, h]
  rfl

/-- The parts of an identifier joined are the identifier. -/
theorem join_keyHash_remainder :
    l.join order role (l.keyHash order role id) (l.remainder order role id) = id := by
  rw [join, keyHash, remainder, List.take_append_drop, rotated, rotateRight_rotateLeft]

end Layout

end RdfIndex
