import Mathlib.Data.List.Flatten
import RdfIndex.Proofs.Statement.Prune
import RdfIndex.Proofs.Store.Lookup

/-!
# Forks of a lookup add up

The cells of ranges that follow one another are, range by range, the cells of the whole range, in
the same order (`CellStore.flatMap_scan`).  So the forks of a lookup find what the lookup finds,
cell by cell, and a fork that a condition rules out has only cells whose identifier the condition
rejects: the identifier that is read back from a cell has the key hash of the row
(`Layout.Recovered.keyHash_idAt`), and the key hash tells the fork.
-/

namespace RdfIndex

/-! ## Cells of ranges one after the other -/

namespace CellStore

variable {s : CellStore} {c : StoredCell} {count : Nat} {whole : ScanRange} {fork : Nat → ScanRange}

theorem mem_scan_iff_contains {range : ScanRange} :
    c ∈ s.scan range.start range.stop ↔ c ∈ s.cells ∧ range.contains c.row = true :=
  List.mem_filter

/-- The cells of ranges that follow one another are those of the whole range, in order. -/
theorem flatMap_scan (s : CellStore) (h : Tiles whole count fork) :
    (List.range count).flatMap (fun f => s.scan (fork f).start (fork f).stop)
      = s.scan whole.start whole.stop := by
  have hsorted : ((List.range count).flatMap
      fun f => s.scan (fork f).start (fork f).stop).Pairwise StoredCell.Before := by
    refine List.pairwise_flatMap.2 ⟨fun f _ => s.sorted.filter _, ?_⟩
    refine List.pairwise_lt_range.imp_of_mem ?_
    intro f g _ hg hfg c hc d hd
    have hle := h.stop_le_start hfg (List.mem_range.1 hg)
    have hlow := Layout.contains_iff.1 (mem_scan_iff_contains.1 hd).2
    have hhigh := Layout.contains_iff.1 (mem_scan_iff_contains.1 hc).2
    exact .inl (Std.lt_of_lt_of_le hhigh.2 (Std.le_trans hle hlow.1))
  -- Both sides are sorted, so that it is enough that they have the same cells.
  suffices heq : (⟨_, hsorted⟩ : CellStore) = ⟨_, s.sorted.filter _⟩ from congrArg cells heq
  refine ext_mem fun c => ?_
  show c ∈ List.flatMap _ _ ↔ c ∈ s.scan whole.start whole.stop
  simp only [List.mem_flatMap, List.mem_range, mem_scan_iff_contains]
  constructor
  · rintro ⟨f, hf, hc, hcontains⟩
    exact ⟨hc, h.contains_whole hf hcontains⟩
  · rintro ⟨hc, hcontains⟩
    obtain ⟨f, ⟨hf, hfork⟩, _⟩ := h.existsUnique hcontains
    exact ⟨f, hf, hc, hfork⟩

end CellStore

namespace Pattern

variable {p : Pattern} {role : Role}

theorem hasContext_order (p : Pattern) : p.order.hasContext = p.binds .context := by
  rw [order]
  cases p.binds .context <;> cases p.binds .subject <;> cases p.binds .predicate <;>
    cases p.binds .object <;> rfl

/-- The context is never what a lookup is split on: it comes first where it is bound, and is not in
the order where it is open. -/
theorem FirstOpen.ne_context (h : p.FirstOpen p.order role) : role ≠ .context := by
  rintro rfl
  have hopen := h.binds_eq_false
  rw [← p.hasContext_order] at hopen
  have hmem := h.mem_roles
  revert hopen hmem
  cases p.order <;> decide

end Pattern

namespace QuadStore

open Layout (Splits)

variable {s : QuadStore} {p : Pattern} {role : Role} {bits count f : Nat} {range : ScanRange}
  {found : List CellContent} {b : CellContent}

/-! ## What a range answers -/

/-- The cells of a range that can be read and whose identifiers agree with a pattern. -/
def answers (s : QuadStore) (p : Pattern) (range : ScanRange) : List CellContent :=
  ((s.store.scan range.start range.stop).filterMap fun c =>
    (s.layout.readCell range.order c.row c.qualifier c.value).toOption).filter
      fun c => s.accepts p c.ids

/-- A range is collected if and only if all its cells can be read. -/
theorem collect_eq_ok_iff : s.collect p range = .ok found
    ↔ (∀ c ∈ s.store.scan range.start range.stop,
        ∃ b, s.layout.readCell range.order c.row c.qualifier c.value = .ok b)
      ∧ s.answers p range = found := by
  constructor
  · intro h
    obtain ⟨contents, hcontents, h⟩ := ok_of_bind h
    obtain ⟨hall, rfl⟩ := mapM_eq_ok_iff.1 hcontents
    exact ⟨hall, Except.ok.inj h⟩
  · rintro ⟨hall, rfl⟩
    rw [collect, mapM_eq_ok_iff.2 ⟨hall, rfl⟩]
    rfl

/-- Ranges that follow one another answer, range by range, what the whole range answers. -/
theorem flatMap_answers {whole : ScanRange} {fork : Nat → ScanRange} (s : QuadStore) (p : Pattern)
    (h : Tiles whole count fork) :
    (List.range count).flatMap (fun f => s.answers p (fork f)) = s.answers p whole := by
  rw [answers, ← s.store.flatMap_scan h, List.filterMap_flatMap, List.filter_flatMap]
  refine List.flatMap_congr fun f hf => ?_
  rw [answers, h.order_eq f (List.mem_range.1 hf)]

/-- What a range answers is read from a cell of the range and agrees with the pattern. -/
theorem of_mem_answers (h : b ∈ s.answers p range) : ∃ row qualifier,
    range.contains row = true ∧ s.layout.Recovered range.order row qualifier b.ids
      ∧ s.layout.Fits p := by
  obtain ⟨hmem, haccepts⟩ := List.mem_filter.1 h
  obtain ⟨c, hc, hread⟩ := List.mem_filterMap.1 hmem
  have hrecovered := Layout.readCell_ok (ok_of_toOption hread)
  refine ⟨c.row, c.qualifier, (CellStore.mem_scan_iff_contains.1 hc).2, hrecovered, ?_⟩
  -- What is bound is what was read back, and that has the size of the layout.
  intro role id hid
  rw [← accepts_iff.1 haccepts role id hid]
  exact hrecovered.sized.filed role

/-! ## Forks of a lookup -/

/-- Where all cells of a lookup can be read, a fork finds what its range answers, or nothing if the
condition rules it out. -/
theorem findFork_eq (h : s.layout.Splits p.order p role bits) (hfind : s.find p = .ok found)
    (hf : f < 2 ^ bits) (accept? : Option (Identifier → Bool)) :
    s.findFork p (2 ^ bits) f accept?
      = .ok (if accept?.all (s.layout.forkMayMatch p.order role bits f) then
          s.answers p (s.layout.forkRange p.order p role bits f) else []) := by
  have hrole : forkRole p = role := by
    have hfirst : p.order.roles.find? (fun r => !p.binds r) = some role := h.first
    rw [forkRole, hfirst]
    rfl
  obtain ⟨hall, _⟩ := collect_eq_ok_iff.1 hfind
  have hcollect : s.collect p (s.layout.forkRange p.order p role bits f)
      = .ok (s.answers p (s.layout.forkRange p.order p role bits f)) := by
    refine collect_eq_ok_iff.2 ⟨fun c hc => ?_, rfl⟩
    obtain ⟨hmem, hcontains⟩ := CellStore.mem_scan_iff_contains.1 hc
    exact hall c (CellStore.mem_scan_iff_contains.2 ⟨hmem, h.tiles.contains_whole hf hcontains⟩)
  rw [findFork, hrole, h.partitionScan_eq hf]
  cases accept?.all (s.layout.forkMayMatch p.order role bits f) with
  | true =>
    show (s.collect p _).mapError _ = _
    rw [hcollect]
    rfl
  | false => rfl

/-- A fork that a condition rules out answers only with cells that the condition rejects. -/
theorem rejects_of_mem_answers {accept : Identifier → Bool}
    (h : s.layout.Splits p.order p role bits) (haccept : s.layout.AsksRoles accept)
    (hf : f < 2 ^ bits) (hpruned : s.layout.forkMayMatch p.order role bits f accept = false)
    (hb : b ∈ s.answers p (s.layout.forkRange p.order p role bits f)) :
    accept (s.layout.filed b.ids role) = false := by
  obtain ⟨row, qualifier, hcontains, (hrecovered : s.layout.Recovered p.order row qualifier b.ids),
    hp⟩ := of_mem_answers hb
  have hwhole := h.tiles.contains_whole hf hcontains
  have hfork := (h.contains_forkRange_iff hp hrecovered.length_row hwhole hf).1 hcontains
  rw [← hrecovered.keyHash_idAt h.first.mem_roles] at hfork
  rw [hrecovered.filed_eq role h.first.ne_context]
  exact Layout.accept_eq_false haccept (hrecovered.length_idAt h.first.mem_roles) h.bits_le hfork
    hpruned

/-- Forked lookups add up.  Where a lookup that leaves a role open succeeds, so do all its forks on
the first open role, in any power of two of forks that has no more bits than the key hash of the
role.  One after the other they find what the lookup finds.  With a condition that asks for nothing
but the descriptors of identifiers they find no more than that, in the same order, and omit only
cells whose identifier in the role the condition rejects. -/
theorem findFork_addsUp (s : QuadStore) (p : Pattern) (role : Role) (count : Nat)
    (found : List CellContent) (hfind : s.find p = .ok found)
    (hrole : p.order.roles.find? (fun r => !p.binds r) = some role) (hcount : count.isPowerOfTwo)
    (hbits : count.log2 ≤ 8 * s.layout.widths.get role) :
    (∃ part : Nat → List CellContent,
      (∀ f < count, s.findFork p count f none = .ok (part f))
      ∧ (List.range count).flatMap part = found)
    ∧ ∀ accept : Identifier → Bool, s.layout.AsksRoles accept →
      ∃ part : Nat → List CellContent,
        (∀ f < count, s.findFork p count f (some accept) = .ok (part f))
        ∧ ((List.range count).flatMap part).Sublist found
        ∧ ((List.range count).flatMap part).filter (fun b => accept (s.layout.filed b.ids role))
          = found.filter (fun b => accept (s.layout.filed b.ids role)) := by
  obtain ⟨bits, rfl⟩ := hcount
  rw [Nat.log2_two_pow] at hbits
  have h : s.layout.Splits p.order p role bits := ⟨p.leads_order, hrole, hbits⟩
  obtain ⟨_, rfl⟩ := collect_eq_ok_iff.1 hfind
  have hwhole := s.flatMap_answers p h.tiles
  refine ⟨⟨_, fun f hf => findFork_eq h hfind hf none, hwhole⟩, ?_⟩
  intro accept haccept
  refine ⟨_, fun f hf => findFork_eq h hfind hf (some accept), ?_, ?_⟩
  · rw [Layout.scan, ← hwhole]
    refine List.Sublist.flatMap_right _ fun f _ => ?_
    split
    · exact List.Sublist.refl _
    · exact List.nil_sublist _
  · rw [Layout.scan, ← hwhole, List.filter_flatMap, List.filter_flatMap]
    refine List.flatMap_congr fun f hf => ?_
    split
    · rfl
    · next hpruned =>
      refine (List.filter_eq_nil_iff.2 fun b hb => ?_).symm
      rw [rejects_of_mem_answers h haccept (List.mem_range.1 hf) (by simpa using hpruned) hb]
      decide

/-- The condition on an identifier to be that of an IRI. -/
def isIri (s : QuadStore) (id : Identifier) : Bool := (s.layout.factory.roles id).kind == .iri

/-- A statement whose subject is an IRI and one whose subject is a blank node. -/
def forkedOps : List StoreOp :=
  [.insert (Layout.narrowQuad none), .insert ⟨.blank "s", .iri "urn:p", .blank "o", none⟩]

/-- The condition rules out the fork of the blank nodes, and what is left is the other cell. -/
theorem findFork_addsUp_forkedOps : ∃ s answers found,
    (empty Layout.narrowLayout).run forkedOps = .ok (s, answers) ∧ s.find .open_ = .ok found
      ∧ found.length = 2
      ∧ (∃ part, (∀ f < 16, s.findFork .open_ 16 f none = .ok (part f))
        ∧ (List.range 16).flatMap part = found)
      ∧ ∃ part, (∀ f < 16, s.findFork .open_ 16 f (some s.isIri) = .ok (part f))
        ∧ part 8 = [] ∧ ((List.range 16).flatMap part).Sublist found
        ∧ (((List.range 16).flatMap part).filter
          fun b => s.isIri (s.layout.filed b.ids .subject)).length = 1 := by
  obtain ⟨⟨s, answers⟩, hrun, hcomputed⟩ := ok_of_any
    (x := (empty Layout.narrowLayout).run forkedOps)
    (p := fun r => (r.1.find .open_).toOption.any (fun found => found.length == 2
      && (found.filter fun b => r.1.isIri (r.1.layout.filed b.ids .subject)).length == 1)
      && (r.1.findFork .open_ 16 8 (some r.1.isIri)).toOption == some [])
    (by decide +kernel)
  obtain ⟨hfind, hpruned⟩ := Bool.and_eq_true_iff.1 hcomputed
  obtain ⟨found, hfind, hlengths⟩ := ok_of_any hfind
  obtain ⟨hlength, hiris⟩ := Bool.and_eq_true_iff.1 hlengths
  have hwidth := (s.layout.width_bounds .subject).1
  obtain ⟨hplain, hconditional⟩ := findFork_addsUp s .open_ .subject 16 found hfind rfl ⟨4, rfl⟩
    (by rw [show Nat.log2 16 = 4 by decide +kernel]; omega)
  obtain ⟨part, hpart, hsublist, hfilter⟩ := hconditional s.isIri fun id id' h => by
    rw [isIri, isIri, h]
  refine ⟨s, answers, found, hrun, hfind, eq_of_beq hlength, hplain, part, hpart, ?_, hsublist, ?_⟩
  · have hnone := ok_of_toOption (eq_of_beq hpruned)
    exact Except.ok.inj ((hpart 8 (by decide)).symm.trans hnone)
  · rw [hfilter]
    exact eq_of_beq hiris

end QuadStore

end RdfIndex
