import RdfIndex.Proofs.Bytes.Order
import RdfIndex.Proofs.Statement.Parts

/-!
# Rows in ranges

All rows of a range are of its order, whatever the range was made for.  The other way round, the
row of every statement that agrees with a pattern is in the range of the pattern
(`between_rangeFor`), in any order.
-/

namespace RdfIndex

namespace Layout

variable {l : Layout} {order : Order} {p : Pattern} {ids : StatementIds}

/-- The statement is filed under what the pattern binds. -/
def Agrees (l : Layout) (p : Pattern) (ids : StatementIds) : Prop :=
  ∀ role id, p.get? role = some id → l.filed ids role = id

/-- The rows of a range are rows of its order. -/
theorem order_of_between {order' : Order} (hlow : ¬ l.row order' ids < (l.rangeFor order p).start)
    (hhigh : l.row order' ids < (l.rangeFor order p).stop) :
    orderByte order = orderByte order' := by
  have hprefix := Bytes.isPrefix_of_between hlow hhigh
  exact (List.cons_prefix_cons.1 hprefix).1

/-- The row of a statement starts with the key hashes that a pattern binds. -/
theorem rangeStart_append (order : Order) (h : l.Agrees p ids) :
    l.rangeStart order p
        ++ (order.roles.dropWhile p.binds).flatMap
          (fun role => l.keyHash order role (l.filed ids role))
      = l.row order ids := by
  have hsplit := List.takeWhile_append_dropWhile (p := p.binds) (l := order.roles)
  rw [rangeStart, row, List.cons_append]
  refine congrArg (orderByte order :: ·) ?_
  rw [← hsplit, List.flatMap_append, hsplit, List.flatMap_def, List.flatMap_def]
  refine congrArg (fun keys => List.flatten keys ++ _) (List.map_congr_left fun role hmem => ?_)
  have hbinds : p.binds role = true := List.all_eq_true.1 List.all_takeWhile role hmem
  obtain ⟨id, hid⟩ := Option.isSome_iff_exists.1 hbinds
  simp only [hid, h role id hid]

/-- The row of a statement that agrees with a pattern is in the range of the pattern. -/
theorem between_rangeFor (hsize : ∀ role, (l.filed ids role).bytes.length = l.idSize)
    (h : l.Agrees p ids) : ¬ l.row order ids < (l.rangeFor order p).start
      ∧ l.row order ids < (l.rangeFor order p).stop := by
  have hrow := rangeStart_append order h
  have hlength : ((order.roles.dropWhile p.binds).flatMap
      fun role => l.keyHash order role (l.filed ids role)).length = l.tailWidth order p :=
    length_flatMap_roles fun role _ => length_keyHash (hsize role)
  rw [← hrow]
  exact ⟨Bytes.not_append_lt _ _,
    (Bytes.append_lt_append_iff _).2 (Bytes.lt_replicate (Nat.le_of_eq hlength))⟩

end Layout

end RdfIndex
