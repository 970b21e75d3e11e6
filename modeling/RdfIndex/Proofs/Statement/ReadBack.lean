import RdfIndex.Proofs.Statement.Identity

/-!
# Statements read back from their cells

What a row and a qualifier are read as is told twice: by the sizes of the parts of any row and any
qualifier that can be read (`Layout.Recovered`), and by the statement that the cell was written for
(`readCell_cells`).  The second holds in all six orders at once, as long as the statement is not in
a named graph that has the identifier of the default graph.
-/

namespace RdfIndex

/-- The parts of the roles before a role and of the role itself are among all parts. -/
theorem total_takeWhile_add_le (width : Role → Nat) {role : Role} : ∀ {roles : List Role},
    role ∈ roles → total width (roles.takeWhile (· != role)) + width role ≤ total width roles := by
  intro roles
  induction roles with
  | nil => intro hmem; cases hmem
  | cons r roles ih =>
    intro hmem
    by_cases heq : r = role
    · subst heq
      simp
    · have hlater := ih ((List.mem_cons.1 hmem).resolve_left (Ne.symm heq))
      rw [List.takeWhile_cons_of_pos (by simpa using heq), total_cons, total_cons]
      omega

namespace Layout

variable {l : Layout} {order : Order} {role : Role} {row qualifier : Bytes} {ids : StatementIds}

/-! ## Rows and qualifiers that can be read -/

theorem length_keyAt (hrow : row.length = l.rowSize order) (hrole : role ∈ order.roles) :
    (l.keyAt order role row).length = l.widths.get role := by
  have hle := total_takeWhile_add_le l.widths.get hrole
  rw [rowSize] at hrow
  rw [keyAt, rolesBefore, List.length_take, List.length_drop]
  omega

theorem length_remainderAt (hqualifier : l.remaindersSize order ≤ qualifier.length)
    (hrole : role ∈ order.roles) :
    (l.remainderAt order role qualifier).length = l.remainderWidth role := by
  have hle := total_takeWhile_add_le l.remainderWidth hrole
  rw [remaindersSize] at hqualifier
  rw [remainderAt, rolesBefore, List.length_take, List.length_drop]
  omega

/-- What the identifiers of a row and its qualifier are, and what sizes these have. -/
structure Recovered (l : Layout) (order : Order) (row qualifier : Bytes) (ids : StatementIds) :
    Prop where
  length_row : row.length = l.rowSize order
  head_row : row.head? = some (orderByte order)
  fits : l.fitsQualifier order qualifier = true
  filed_eq : ∀ role, role ≠ .context → l.filed ids role = l.idAt order role row qualifier
  context_eq : ids.context = l.contextAt order row qualifier

theorem recovered_of_readIds (h : l.readIds order row qualifier = .ok ids) :
    l.Recovered order row qualifier ids := by
  rw [readIds] at h
  by_cases hrow : row.length ≠ l.rowSize order ∨ row.head? ≠ some (orderByte order)
  · rw [if_pos hrow] at h
    cases h
  · by_cases hfits : (!l.fitsQualifier order qualifier) = true
    · rw [if_neg hrow, if_pos hfits] at h
      cases h
    · rw [if_neg hrow, if_neg hfits] at h
      rw [not_or, Decidable.not_not, Decidable.not_not] at hrow
      cases h
      refine ⟨hrow.1, hrow.2, by simpa using hfits, ?_, rfl⟩
      intro role hne
      cases role with
      | subject => rfl
      | predicate => rfl
      | object => rfl
      | context => exact absurd rfl hne

theorem readCell_ok {value : Bytes} {b : CellContent}
    (h : l.readCell order row qualifier value = .ok b) :
    l.Recovered order row qualifier b.ids := by
  obtain ⟨ids, hids, h⟩ := ok_of_bind h
  obtain ⟨q, _, h⟩ := ok_of_bind h
  by_cases hcontext : q.context.isSome = ids.context.isSome
  · rw [if_pos hcontext] at h
    cases h
    exact recovered_of_readIds hids
  · rw [if_neg hcontext] at h
    cases h

namespace Recovered

variable (h : l.Recovered order row qualifier ids)

include h

theorem remaindersSize_le : l.remaindersSize order ≤ qualifier.length := by
  have hfits := h.fits
  simp only [fitsQualifier, Bool.or_eq_true, beq_iff_eq, Bool.and_eq_true] at hfits
  omega

/-- A part of the row and a part of the qualifier make an identifier. -/
theorem length_idAt (hrole : role ∈ order.roles) :
    (l.idAt order role row qualifier).bytes.length = l.idSize := by
  have hwidth := l.width_bounds role
  show (rotateRight _ (l.keyAt order role row ++ l.remainderAt order role qualifier)).length = _
  rw [length_rotateRight, List.length_append, length_keyAt h.length_row hrole,
    length_remainderAt h.remaindersSize_le hrole, remainderWidth]
  omega

/-- The key hash of what is recovered is the one in the row. -/
theorem keyHash_idAt (hrole : role ∈ order.roles) :
    l.keyHash order role (l.idAt order role row qualifier) = l.keyAt order role row := by
  have hkey := length_keyAt h.length_row hrole
  rw [keyHash, rotated, idAt, join, rotateLeft_rotateRight, ← hkey, List.take_left]

/-- What the key hash of what is recovered leaves is what stands in the qualifier. -/
theorem remainder_idAt (hrole : role ∈ order.roles) :
    l.remainder order role (l.idAt order role row qualifier)
      = l.remainderAt order role qualifier := by
  have hkey := length_keyAt h.length_row hrole
  rw [remainder, rotated, idAt, join, rotateLeft_rotateRight, ← hkey, List.drop_left]

/-- All identifiers that are recovered have the size of the layout. -/
theorem sized : l.Sized ids := by
  intro role id hid
  by_cases hrole : role = .context
  · subst hrole
    have hcontext : l.contextAt order row qualifier = some id := h.context_eq ▸ hid
    rw [contextAt] at hcontext
    cases horder : order.hasContext with
    | true =>
      simp only [horder, if_true] at hcontext
      split at hcontext
      · cases hcontext
      · cases hcontext
        exact h.length_idAt (Order.context_mem_roles horder)
    | false =>
      simp only [horder, Bool.false_eq_true, if_false] at hcontext
      split at hcontext
      · cases hcontext
      · next bytes hne =>
        cases hcontext
        -- Something is left after the remainders, so the qualifier is the longer of the two.
        have hfits := h.fits
        have hlength : (qualifier.drop (l.remaindersSize order)).length ≠ 0 :=
          fun hzero => hne (List.length_eq_zero_iff.1 hzero)
        simp only [fitsQualifier, Bool.or_eq_true, beq_iff_eq, Bool.and_eq_true] at hfits
        show (qualifier.drop (l.remaindersSize order)).length = _
        rw [List.length_drop] at hlength ⊢
        omega
  · have hfiled : l.filed ids role = id := by rw [filed, hid]; rfl
    rw [← hfiled, h.filed_eq role hrole]
    exact h.length_idAt (order.mem_roles hrole)

end Recovered

/-! ## Cells of a statement -/

/-- All cells of a statement are read back, each in its own order: the identifiers are those of the
statement, and the terms are those of the statement, which is without context if its context names
the default graph.  The statement must not be in another graph that has the identifier of the
default graph. -/
theorem readCell_cells (l : Layout) (q : Quad) (cells : List Cell) (hcells : l.cells q = .ok cells)
    (hlimit : ∀ c ∈ cells, c.value.length < positionLimit)
    (hgraph : ∀ g, q.context = some g → g ≠ defaultGraph →
      l.factory.id g ≠ .ok l.defaultContext) :
    cells.map Cell.order = Order.all
      ∧ ∃ e, l.encodeTerms q = .ok e ∧ ∀ c ∈ cells,
        l.readCell c.order c.row c.qualifier c.value = .ok ⟨l.idsOf e, q.normalize⟩ := by
  obtain ⟨e, he, rfl⟩ := ok_of_map hcells
  have hencodes := encodesTo_of_encodeTerms he
  have hclash : l.clashes (l.idsOf e) = false := by
    rw [Bool.eq_false_iff]
    intro hclash
    have hid := clashes_iff.1 hclash
    rcases hencodes.context with ⟨_, hnone⟩ | ⟨g, c, hg, hencode, hsome⟩
    · rw [idsOf, hnone] at hid
      cases hid
    · obtain ⟨hcontext, hne⟩ := Quad.context_normalize_eq_some.1 hg
      rw [idsOf, hsome, Option.map_some, Option.some.injEq] at hid
      exact hgraph g hcontext hne (hid ▸ IdFactory.id_of_encode hencode)
  refine ⟨List.map_map.trans (List.map_id' _), e, he, ?_⟩
  intro c hc
  have hvalue := hlimit c hc
  obtain ⟨order, _, rfl⟩ := List.mem_map.1 hc
  have hread := readCell_cellIn hencodes hvalue order
  rw [hclash, Bool.and_false] at hread
  exact hread

/-- Identifiers of two bytes, so that a role in the third or fourth place is rotated as one in the
first or second. -/
def narrowLayout : Layout :=
  ⟨⟨⟨.sipHash, 2, true, by decide, by decide⟩, .bare⟩, ⟨1, 2, 1, 2⟩, by decide, _, rfl⟩

/-- A statement of the narrow layout in a graph. -/
def narrowQuad (context : Option Term) : Quad := ⟨.iri "urn:s", .iri "urn:p", .blank "o", context⟩

theorem narrowQuad_cells (context : Option Term)
    (h : (narrowLayout.cells (narrowQuad context)).toOption.any
      (fun cells => cells.all fun c => decide (c.value.length < positionLimit)) = true) :
    ∃ cells, narrowLayout.cells (narrowQuad context) = .ok cells
      ∧ ∀ c ∈ cells, c.value.length < positionLimit := by
  obtain ⟨cells, hcells, hall⟩ := ok_of_any h
  exact ⟨cells, hcells, fun c hc => of_decide_eq_true (List.all_eq_true.1 hall c hc)⟩

/-- A named graph is read back from every cell, the name of the default graph from none. -/
theorem readCell_cells_narrow :
    (∃ cells, narrowLayout.cells (narrowQuad (some (.iri "urn:g"))) = .ok cells
      ∧ cells.length = 6 ∧ ∀ c ∈ cells,
        (narrowLayout.readCell c.order c.row c.qualifier c.value).toOption.map CellContent.quad
          = some (narrowQuad (some (.iri "urn:g"))))
    ∧ ∃ cells, narrowLayout.cells (narrowQuad (some defaultGraph)) = .ok cells
      ∧ cells.length = 6 ∧ ∀ c ∈ cells,
        (narrowLayout.readCell c.order c.row c.qualifier c.value).toOption.map CellContent.quad
          = some (narrowQuad none) := by
  constructor
  · obtain ⟨cells, hcells, hlimit⟩ :=
      narrowQuad_cells (some (.iri "urn:g")) (by decide +kernel)
    have hgraph : narrowLayout.factory.id (.iri "urn:g") ≠ .ok narrowLayout.defaultContext :=
      fun hid => absurd (congrArg Except.toOption hid) (by decide +kernel)
    obtain ⟨horders, e, _, hread⟩ := readCell_cells narrowLayout _ cells hcells hlimit
      fun g hg _ => Option.some.inj hg ▸ hgraph
    refine ⟨cells, hcells, by simpa [Order.all] using congrArg List.length horders, ?_⟩
    intro c hc
    rw [hread c hc]
    rfl
  · obtain ⟨cells, hcells, hlimit⟩ := narrowQuad_cells (some defaultGraph) (by decide +kernel)
    obtain ⟨horders, e, _, hread⟩ := readCell_cells narrowLayout _ cells hcells hlimit
      fun g hg hne => absurd (Option.some.inj hg).symm hne
    refine ⟨cells, hcells, by simpa [Order.all] using congrArg List.length horders, ?_⟩
    intro c hc
    rw [hread c hc]
    rfl

end Layout

end RdfIndex
