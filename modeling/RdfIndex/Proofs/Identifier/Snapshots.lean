import Mathlib.Data.List.Forall2
import RdfIndex.Identifier.Session
import RdfIndex.Proofs.Encoding.Cuts
import RdfIndex.Proofs.Identifier.Roles

/-!
# Which identifier a value shows

A value has one snapshot, which every deriver and every given identifier may replace.  What it shows
is told by the history of what was done with it: an identifier that was given is shown to derivers
of its generation (`Served`) until another one is given or a deriver of another generation looks.
Otherwise the value shows what the deriver derives.  The journal of a session writes these histories
down from the operations alone, and `Session.run_answers` says that the session answers as the
journal tells.
-/

namespace RdfIndex

/-! ## Histories -/

/-- Something that was done with a value. -/
inductive Access where
  /-- A deriver of a generation was asked for the identifier or the encoded form. -/
  | looked (generation : Nat)
  /-- An identifier was given by a deriver of a generation. -/
  | given (generation : Nat) (id : Identifier)

/-- In a history, of which the latest access is the first, an identifier was given for a generation,
and after that only derivers of this generation looked. -/
def Served (history : List Access) (generation : Nat) (id : Identifier) : Prop :=
  ∃ later earlier, history = later ++ .given generation id :: earlier
    ∧ ∀ a ∈ later, a = .looked generation

section Served

variable {history : List Access} {generation g : Nat} {id given : Identifier}

theorem not_served_nil : ¬ Served [] generation id := by
  rintro ⟨later, earlier, h, _⟩
  cases later <;> cases h

theorem served_given_iff :
    Served (.given g given :: history) generation id ↔ g = generation ∧ given = id := by
  constructor
  · rintro ⟨later, earlier, h, hlater⟩
    cases later with
    | nil =>
      cases h
      exact ⟨rfl, rfl⟩
    | cons a later =>
      obtain ⟨rfl, _⟩ := List.cons.inj h
      cases hlater _ List.mem_cons_self
  · rintro ⟨rfl, rfl⟩
    exact ⟨[], history, rfl, nofun⟩

theorem served_looked_iff :
    Served (.looked g :: history) generation id ↔ g = generation ∧ Served history generation id := by
  constructor
  · rintro ⟨later, earlier, h, hlater⟩
    cases later with
    | nil => cases h
    | cons a later =>
      obtain ⟨rfl, hrest⟩ := List.cons.inj h
      obtain ⟨ha, hlater⟩ := List.forall_mem_cons.1 hlater
      exact ⟨Access.looked.inj ha, later, earlier, hrest, hlater⟩
  · rintro ⟨rfl, later, earlier, rfl, hlater⟩
    exact ⟨.looked g :: later, earlier, rfl, List.forall_mem_cons.2 ⟨rfl, hlater⟩⟩

end Served

/-- The identifier that a value with a history shows to a deriver: the one that was given, or else
the one that is derived. -/
def Shows (history : List Access) (generation : Nat) (f : IdFactory) (t : Term) (id : Identifier) :
    Prop :=
  (∀ given, Served history generation given → id = given)
    ∧ ((∀ given, ¬ Served history generation given) → f.id t = .ok id)

/-! ## Snapshots -/

/-- A snapshot holds what a value with a history shows to the derivers of its generation, and
derivers of other generations are not served. -/
structure Snapshot.Fits (s : Snapshot) (f : IdFactory) (t : Term) (history : List Access) :
    Prop where
  shows : Shows history s.generation f t s.id
  encoded : f.codec.encode t = .ok s.encoded
  others : ∀ generation given, Served history generation given → generation = s.generation

/-- The generations and factories of some derivers, with one factory for each generation. -/
def Separate (factories : List (Nat × IdFactory)) : Prop :=
  ∀ p ∈ factories, ∀ q ∈ factories, p.1 = q.1 → p.2 = q.2

/-- A value remembers what its history tells. -/
structure Remembered.Follows (v : Remembered) (factories : List (Nat × IdFactory)) (t : Term)
    (history : List Access) : Prop where
  value : v.value = t
  not_cut : ¬ t.IsCut
  fresh : v.snapshot? = none → history = []
  fits : ∀ s, v.snapshot? = some s → ∃ f, (s.generation, f) ∈ factories ∧ s.Fits f t history

/-- A deriver has a generation and a factory, and a cache that is right. -/
structure Deriver.IsOf (d : Deriver) (p : Nat × IdFactory) : Prop where
  generation : d.generation = p.1
  factory : d.factory = p.2
  coherent : d.Coherent

section Values

variable {v : Remembered} {d : Deriver} {factories : List (Nat × IdFactory)} {t : Term}
  {history : List Access} {p : Nat × IdFactory}

theorem Deriver.IsOf.derive (h : d.IsOf p) (e : Encoded) :
    (d.derive e).1 = p.2.derive e ∧ (d.derive e).2.IsOf p := by
  obtain ⟨hid, hcoherent, hfactory⟩ := derive_spec h.coherent e
  refine ⟨h.factory ▸ hid, ?_, hfactory.trans h.factory, hcoherent⟩
  rw [← h.generation, Deriver.derive]
  split
  · rfl
  · split <;> rfl

theorem Deriver.IsOf.countSnapshot (h : d.IsOf p) (hit : Bool) : (d.countSnapshot hit).IsOf p := by
  cases hit <;> exact ⟨h.generation, h.factory, h.coherent⟩

/-- A snapshot that is replaced served nothing to the deriver that replaces it. -/
theorem Remembered.Follows.not_served (h : v.Follows factories t history)
    (hother : v.snapshot?.filter (·.generation == p.1) = none) (given : Identifier) :
    ¬ Served history p.1 given := by
  intro hserved
  cases hs : v.snapshot? with
  | none =>
    rw [h.fresh hs] at hserved
    exact not_served_nil hserved
  | some s =>
    obtain ⟨f, _, hfits⟩ := h.fits s hs
    rw [hs, Option.filter_some, if_pos (beq_iff_eq.2 (hfits.others p.1 given hserved).symm)] at hother
    cases hother

/-- A snapshot is what the value shows, whether it was there or is taken. -/
theorem Remembered.Follows.snapshotFor (h : v.Follows factories t history)
    (hd : d.IsOf p) (hp : p ∈ factories) (hseparate : Separate factories) :
    ∃ s v' d', v.snapshotFor d = .ok (s, v', d') ∧ Shows history p.1 p.2 t s.id
      ∧ p.2.codec.encode t = .ok s.encoded
      ∧ v'.Follows factories t (.looked p.1 :: history) ∧ d'.IsOf p := by
  rw [Remembered.snapshotFor, hd.generation]
  split
  · next s hfound =>
    obtain ⟨hs, hgeneration⟩ := Option.filter_eq_some_iff.1 hfound
    have hgeneration : s.generation = p.1 := beq_iff_eq.1 hgeneration
    obtain ⟨f, hf, hfits⟩ := h.fits s hs
    obtain rfl : f = p.2 := hseparate _ hf p hp hgeneration
    refine ⟨s, v, d.countSnapshot true, rfl, hgeneration ▸ hfits.shows, hfits.encoded, ?_,
      hd.countSnapshot true⟩
    refine ⟨h.value, h.not_cut, fun hnone => ?_, fun s' hs' => ?_⟩
    · rw [hs] at hnone
      cases hnone
    · obtain rfl : s = s' := Option.some.inj (hs.symm.trans hs')
      refine ⟨p.2, hf, ⟨fun given hserved => ?_, fun hnone => ?_⟩, hfits.encoded,
        fun g given hserved => ?_⟩
      · exact hfits.shows.1 given (served_looked_iff.1 hserved).2
      · refine hfits.shows.2 fun given hserved => hnone given ?_
        exact served_looked_iff.2 ⟨hgeneration.symm, hserved⟩
      · exact hfits.others g given (served_looked_iff.1 hserved).2
  · next hother =>
    obtain ⟨e, he⟩ := (p.2.codec.encode_ok_iff t).2 h.not_cut
    have hnone := h.not_served hother
    have hd := hd.countSnapshot false
    obtain ⟨hid, hd'⟩ := hd.derive e
    have hshows : p.2.id t = .ok (p.2.derive e) := congrArg (Except.map p.2.derive) he
    refine ⟨⟨p.1, p.2.derive e, e⟩, { v with snapshot? := some ⟨p.1, p.2.derive e, e⟩ },
      ((d.countSnapshot false).derive e).2, ?_, ⟨fun given hserved => absurd hserved (hnone given),
        fun _ => hshows⟩, he, ⟨h.value, h.not_cut, nofun, ?_⟩, hd'⟩
    · simp only [hd.factory, h.value, he]
      show Except.ok (Snapshot.mk ((d.countSnapshot false).derive e).2.generation
        ((d.countSnapshot false).derive e).1 e, _, _) = _
      rw [hid, hd'.generation]
    · rintro s ⟨⟩
      refine ⟨p.2, hp, ⟨fun given hserved => ?_, fun _ => hshows⟩, he, fun g given hserved => ?_⟩
      · exact absurd (served_looked_iff.1 hserved).2 (hnone given)
      · exact (served_looked_iff.1 hserved).1.symm

/-- An identifier that is given is shown. -/
theorem Remembered.Follows.setId (h : v.Follows factories t history) (hd : d.IsOf p)
    (hp : p ∈ factories) (id : Identifier) :
    ∃ v', v.setId d id = .ok v' ∧ v'.Follows factories t (.given p.1 id :: history) := by
  obtain ⟨e, he⟩ := (p.2.codec.encode_ok_iff t).2 h.not_cut
  refine ⟨{ v with snapshot? := some ⟨p.1, id, e⟩ }, ?_, h.value, h.not_cut, nofun, ?_⟩
  · rw [Remembered.setId, hd.factory, h.value, he, hd.generation]
    rfl
  · rintro s ⟨⟩
    refine ⟨p.2, hp, ⟨fun given hserved => ?_, fun hnone => ?_⟩, he, fun g given hserved => ?_⟩
    · exact (served_given_iff.1 hserved).2
    · exact absurd (served_given_iff.2 ⟨rfl, rfl⟩) (hnone id)
    · exact (served_given_iff.1 hserved).1.symm

/-- A value keeps following its history when derivers are made. -/
theorem Remembered.Follows.mono {factories' : List (Nat × IdFactory)}
    (h : v.Follows factories t history) (hsub : factories ⊆ factories') :
    v.Follows factories' t history where
  value := h.value
  not_cut := h.not_cut
  fresh := h.fresh
  fits s hs :=
    let ⟨f, hf, hfits⟩ := h.fits s hs
    ⟨f, hsub hf, hfits⟩

end Values

/-! ## Sessions -/

/-- What is known of a session from its operations. -/
structure Journal where
  /-- The generation of the deriver that is made next. -/
  next : Nat
  /-- The generation and the factory of each deriver. -/
  derivers : List (Nat × IdFactory)
  /-- Each value, and what was done with it and with the values that it was copied from, the latest
  first. -/
  values : List (Term × List Access)

namespace Journal

/-- The journal of a session without derivers and values. -/
def start : Journal := ⟨1, [], []⟩

/-- Writes an access to a value by a deriver down. -/
def access (j : Journal) (value deriver : Nat) (a : Nat → Access) : Journal :=
  match j.values[value]?, j.derivers[deriver]? with
  | some (t, history), some (generation, _) =>
    { j with values := j.values.set value (t, a generation :: history) }
  | _, _ => j

/-- Writes an operation down. -/
def step (j : Journal) : SessionOp → Journal
  | .newDeriver factory _ =>
    { j with next := j.next + 1, derivers := j.derivers ++ [(j.next, factory)] }
  | .withCache deriver _ _ =>
    match j.derivers[deriver]? with
    | none => j
    | some p => { j with derivers := j.derivers ++ [p] }
  | .newValue t => { j with values := j.values ++ [(t, [])] }
  | .cloneValue value =>
    match j.values[value]? with
    | none => j
    | some p => { j with values := j.values ++ [p] }
  | .id value deriver => j.access value deriver .looked
  | .encodedForm value deriver => j.access value deriver .looked
  | .setId value deriver id => j.access value deriver (.given · id)
  | .derive _ _ => j

/-- What the journal says of the answer to an operation.  An identifier is what the value shows to
the deriver, or what the deriver derives; an encoded form is that of the deriver's codec. -/
def Tells (j : Journal) (answer : SessionAnswer) : SessionOp → Prop
  | .id value deriver => ∀ t history generation f, j.values[value]? = some (t, history) →
    j.derivers[deriver]? = some (generation, f) →
      ∃ id, answer = .id id ∧ Shows history generation f t id
  | .encodedForm value deriver => ∀ t history generation f,
    j.values[value]? = some (t, history) → j.derivers[deriver]? = some (generation, f) →
      ∃ e, answer = .form e ∧ f.codec.encode t = .ok e
  | .derive deriver e => ∀ generation f, j.derivers[deriver]? = some (generation, f) →
    answer = .id (f.derive e)
  | _ => True

/-- What the journal says of the answers to some operations in turn. -/
def TellsAll (j : Journal) : List SessionOp → List SessionAnswer → Prop
  | [], [] => True
  | op :: ops, answer :: answers => j.Tells answer op ∧ (j.step op).TellsAll ops answers
  | _, _ => False

end Journal

section Pointwise

variable {α β : Type} {R : α → β → Prop} {as : List α} {bs : List β}

theorem forall₂_getElem? (h : List.Forall₂ R as bs) (i : Nat) :
    (as[i]? = none ∧ bs[i]? = none) ∨ ∃ a b, as[i]? = some a ∧ bs[i]? = some b ∧ R a b := by
  induction h generalizing i with
  | nil => exact .inl ⟨rfl, rfl⟩
  | cons hab _ ih =>
    cases i with
    | zero => exact .inr ⟨_, _, rfl, rfl, hab⟩
    | succ i => exact ih i

theorem forall₂_set (h : List.Forall₂ R as bs) (i : Nat) {a : α} {b : β} (hab : R a b) :
    List.Forall₂ R (as.set i a) (bs.set i b) := by
  induction h generalizing i with
  | nil => exact .nil
  | cons hold hrest ih =>
    cases i with
    | zero => exact .cons hab hrest
    | succ i => exact .cons hold (ih i)

theorem forall₂_set_left (h : List.Forall₂ R as bs) {i : Nat} {a : α} {b : β}
    (hb : bs[i]? = some b) (hab : R a b) : List.Forall₂ R (as.set i a) bs := by
  obtain ⟨hlt, rfl⟩ := List.getElem?_eq_some_iff.1 hb
  have hset := forall₂_set h i hab
  rwa [List.set_getElem_self hlt] at hset

theorem forall₂_concat (h : List.Forall₂ R as bs) {a : α} {b : β} (hab : R a b) :
    List.Forall₂ R (as ++ [a]) (bs ++ [b]) :=
  List.rel_append h (.cons hab .nil)

end Pointwise

/-- A session is what its journal tells. -/
structure Session.Follows (s : Session) (j : Journal) : Prop where
  next : s.next = j.next
  older : ∀ p ∈ j.derivers, p.1 < j.next
  separate : Separate j.derivers
  derivers : List.Forall₂ Deriver.IsOf s.derivers j.derivers
  values : List.Forall₂ (fun v p => v.Follows j.derivers p.1 p.2) s.values j.values

namespace Session

variable {s : Session} {j : Journal}

theorem follows_start : start.Follows Journal.start :=
  ⟨rfl, nofun, nofun, .nil, .nil⟩

theorem Follows.addDeriver (h : s.Follows j) {d : Deriver} {p : Nat × IdFactory} {next next' : Nat}
    (hd : d.IsOf p) (hsame : next = next') (hnext : j.next ≤ next') (hp : p.1 < next')
    (hseparate : ∀ q ∈ j.derivers, p.1 = q.1 → p.2 = q.2) :
    Follows { s.addDeriver d with next := next }
      { j with next := next', derivers := j.derivers ++ [p] } where
  next := hsame
  older := by
    intro q hq
    rcases List.mem_append.1 hq with hq | hq
    · exact Nat.lt_of_lt_of_le (h.older q hq) hnext
    · exact List.mem_singleton.1 hq ▸ hp
  separate := by
    intro q hq r hr heq
    rcases List.mem_append.1 hq with hold | hnew <;> rcases List.mem_append.1 hr with hold' | hnew'
    · exact h.separate q hold r hold' heq
    · obtain rfl := List.mem_singleton.1 hnew'
      exact (hseparate q hold heq.symm).symm
    · obtain rfl := List.mem_singleton.1 hnew
      exact hseparate r hold' heq
    · rw [List.mem_singleton.1 hnew, List.mem_singleton.1 hnew']
  derivers := forall₂_concat h.derivers hd
  values := h.values.imp fun _ _ hv => hv.mono (List.subset_append_left _ _)

theorem Follows.addValue (h : s.Follows j) {v : Remembered} {t : Term} {history : List Access}
    (hv : v.Follows j.derivers t history) :
    (s.addValue v).Follows { j with values := j.values ++ [(t, history)] } where
  next := h.next
  older := h.older
  separate := h.separate
  derivers := h.derivers
  values := forall₂_concat h.values hv

/-- What is done with a value and a deriver follows the journal if it does so wherever they are. -/
theorem Follows.use (h : s.Follows j) (value deriver : Nat) {a : Nat → Access}
    {f : Remembered → Deriver → Except InsideCharacter (SessionAnswer × Remembered × Deriver)}
    {Q : SessionAnswer → Term → List Access → Nat × IdFactory → Prop}
    (hf : ∀ v d t history p, v.Follows j.derivers t history → d.IsOf p → p ∈ j.derivers →
      ∃ answer v' d', f v d = .ok (answer, v', d')
        ∧ v'.Follows j.derivers t (a p.1 :: history) ∧ d'.IsOf p ∧ Q answer t history p) :
    ∃ answer s', s.use value deriver f = .ok (answer, s')
      ∧ s'.Follows (j.access value deriver a)
      ∧ ∀ t history p, j.values[value]? = some (t, history) → j.derivers[deriver]? = some p →
        Q answer t history p := by
  rw [Session.use, Journal.access]
  rcases forall₂_getElem? h.values value with ⟨hv, hv'⟩ | ⟨v, ⟨t, history⟩, hv, hv', hvalue⟩
  · rw [hv, hv']
    exact ⟨.nothing, s, rfl, h, nofun⟩
  rcases forall₂_getElem? h.derivers deriver with ⟨hd, hd'⟩ | ⟨d, p, hd, hd', hderiver⟩
  · rw [hv, hv', hd, hd']
    exact ⟨.nothing, s, rfl, h, nofun⟩
  obtain ⟨answer, v', d', hok, hv'', hd'', hQ⟩ :=
    hf v d t history p hvalue hderiver (List.mem_of_getElem? hd')
  rw [hv, hv', hd, hd']
  refine ⟨answer, _, congrArg (Except.map _) hok, ⟨h.next, h.older, h.separate, ?_, ?_⟩, ?_⟩
  · exact forall₂_set_left h.derivers hd' hd''
  · exact forall₂_set h.values value hv''
  · rintro t' history' p' ⟨⟩ ⟨⟩
    exact hQ

/-- An operation is answered as the journal tells, and the session follows the journal after it. -/
theorem Follows.step (h : s.Follows j) (op : SessionOp) (hop : ∀ t, op = .newValue t → ¬ t.IsCut) :
    ∃ answer s', s.step op = .ok (answer, s') ∧ s'.Follows (j.step op) ∧ j.Tells answer op := by
  cases op with
  | newDeriver factory cache =>
    have hd : (Deriver.start factory s.next cache).IsOf (j.next, factory) :=
      ⟨h.next, rfl, Deriver.coherent_start factory s.next cache⟩
    have hnew : ∀ q ∈ j.derivers, j.next = q.1 → factory = q.2 :=
      fun q hq heq => absurd heq (Nat.ne_of_gt (h.older q hq))
    refine ⟨.nothing, _, rfl, ?_, trivial⟩
    exact h.addDeriver hd (congrArg (· + 1) h.next) (Nat.le_succ j.next) (Nat.lt_succ_self j.next)
      hnew
  | withCache deriver shards capacity =>
    rw [Session.step, Journal.step]
    rcases forall₂_getElem? h.derivers deriver with ⟨hd, hd'⟩ | ⟨d, p, hd, hd', hderiver⟩
    · rw [hd, hd']
      exact ⟨.nothing, s, rfl, h, trivial⟩
    · rw [hd, hd']
      have hmem := List.mem_of_getElem? hd'
      have hcopy : (Deriver.start d.factory d.generation (some (shards, capacity))).IsOf p :=
        ⟨hderiver.generation, hderiver.factory, Deriver.coherent_start d.factory d.generation _⟩
      refine ⟨.nothing, _, rfl, ?_, trivial⟩
      exact h.addDeriver hcopy h.next (Nat.le_refl j.next) (h.older p hmem) (h.separate p hmem)
  | newValue t =>
    have hfresh : ∀ s, (Remembered.fresh t).snapshot? ≠ some s := fun s hs => by cases hs
    exact ⟨.nothing, _, rfl, h.addValue ⟨rfl, hop t rfl, fun _ => rfl,
      fun s hs => absurd hs (hfresh s)⟩, trivial⟩
  | cloneValue value =>
    rw [Session.step, Journal.step]
    rcases forall₂_getElem? h.values value with ⟨hv, hv'⟩ | ⟨v, p, hv, hv', hvalue⟩
    · rw [hv, hv']
      exact ⟨.nothing, s, rfl, h, trivial⟩
    · rw [hv, hv']
      exact ⟨.nothing, _, rfl, h.addValue hvalue, trivial⟩
  | id value deriver =>
    obtain ⟨answer, s', hok, hfollows, htells⟩ := h.use value deriver (a := .looked)
      (f := fun v d => (v.id d).map fun r => (.id r.1, r.2))
      (Q := fun answer t history p => ∃ id, answer = .id id ∧ Shows history p.1 p.2 t id) (by
        intro v d t history p hv hd hp
        obtain ⟨snapshot, v', d', hok, hshows, _, hv', hd'⟩ := hv.snapshotFor hd hp h.separate
        refine ⟨.id snapshot.id, v', d', ?_, hv', hd', snapshot.id, rfl, hshows⟩
        rw [Remembered.id, hok]
        rfl)
    exact ⟨answer, s', hok, hfollows, fun t history g f hv hd => htells t history (g, f) hv hd⟩
  | encodedForm value deriver =>
    obtain ⟨answer, s', hok, hfollows, htells⟩ := h.use value deriver (a := .looked)
      (f := fun v d => (v.encodedForm d).map fun r => (.form r.1, r.2))
      (Q := fun answer t _ p => ∃ e, answer = .form e ∧ p.2.codec.encode t = .ok e) (by
        intro v d t history p hv hd hp
        obtain ⟨snapshot, v', d', hok, _, hencoded, hv', hd'⟩ := hv.snapshotFor hd hp h.separate
        refine ⟨.form snapshot.encoded, v', d', ?_, hv', hd', snapshot.encoded, rfl, hencoded⟩
        rw [Remembered.encodedForm, hok]
        rfl)
    exact ⟨answer, s', hok, hfollows, fun t history g f hv hd => htells t history (g, f) hv hd⟩
  | setId value deriver id =>
    obtain ⟨answer, s', hok, hfollows, _⟩ := h.use value deriver (a := (.given · id))
      (f := fun v d => (v.setId d id).map fun v => (.nothing, v, d)) (Q := fun _ _ _ _ => True) (by
        intro v d t history p hv hd hp
        obtain ⟨v', hok, hv'⟩ := hv.setId hd hp id
        refine ⟨.nothing, v', d, ?_, hv', hd, trivial⟩
        rw [hok]
        rfl)
    exact ⟨answer, s', hok, hfollows, trivial⟩
  | derive deriver e =>
    rw [Session.step]
    rcases forall₂_getElem? h.derivers deriver with ⟨hd, hd'⟩ | ⟨d, p, hd, hd', hderiver⟩
    · rw [hd]
      refine ⟨.nothing, s, rfl, h, fun g f hderiver => ?_⟩
      rw [hd'] at hderiver
      cases hderiver
    · rw [hd]
      obtain ⟨hid, hnext⟩ := hderiver.derive e
      refine ⟨.id (d.derive e).1, _, rfl, ⟨h.next, h.older, h.separate,
        forall₂_set_left h.derivers hd' hnext, h.values⟩, fun g f hp => ?_⟩
      rw [hd'] at hp
      cases hp
      exact congrArg SessionAnswer.id hid

theorem Follows.run (h : s.Follows j) (ops : List SessionOp)
    (hops : ∀ t, .newValue t ∈ ops → ¬ t.IsCut) :
    ∃ answers s', s.run ops = .ok (answers, s') ∧ j.TellsAll ops answers := by
  induction ops generalizing s j with
  | nil => exact ⟨[], s, rfl, trivial⟩
  | cons op ops ih =>
    obtain ⟨answer, s', hstep, hfollows, htells⟩ := h.step op fun t hop =>
      hops t (hop ▸ List.mem_cons_self)
    obtain ⟨answers, s'', hrun, hrest⟩ := ih hfollows fun t ht =>
      hops t (List.mem_cons_of_mem op ht)
    refine ⟨answer :: answers, s'', ?_, htells, hrest⟩
    rw [Session.run, hstep]
    show (s'.run ops >>= _) = _
    rw [hrun]
    rfl

/-- However derivers and values are made, copied and asked in turn, every answer is the one that the
journal tells: an encoded form is that of the value under the deriver's codec; an identifier is the
one that was given last for the deriver's generation, unless the value has served another generation
since, and then and otherwise the one that the deriver derives. -/
theorem run_answers (ops : List SessionOp) (hops : ∀ t, .newValue t ∈ ops → ¬ t.IsCut) :
    ∃ answers s, start.run ops = .ok (answers, s) ∧ Journal.start.TellsAll ops answers :=
  follows_start.run ops hops

/-- A given identifier, a copy of the value, and a look from another generation in between. -/
def sharedValue : List SessionOp :=
  [.newDeriver .single none, .withCache 0 2 8, .newDeriver .single none, .newValue (.blank "b"),
    .setId 0 0 ⟨[7]⟩, .id 0 1, .cloneValue 0, .id 0 2, .id 0 0, .id 1 1]

/-- The copy of the value still shows the given identifier, the value itself does not. -/
def sharedValueAnswers : List SessionAnswer :=
  [.nothing, .nothing, .nothing, .nothing, .nothing, .id ⟨[7]⟩, .nothing, .id ⟨[8]⟩, .id ⟨[8]⟩,
    .id ⟨[7]⟩]

theorem run_answers_sharedValue : (∀ t, .newValue t ∈ sharedValue → ¬ t.IsCut)
    ∧ ∃ s, start.run sharedValue = .ok (sharedValueAnswers, s)
      ∧ Journal.start.TellsAll sharedValue sharedValueAnswers := by
  have hops : ∀ t, .newValue t ∈ sharedValue → ¬ t.IsCut := by
    intro t ht
    obtain rfl : t = .blank "b" := by simpa [sharedValue] using ht
    exact id
  have heval : (start.run sharedValue).toOption.map Prod.fst = some sharedValueAnswers := by
    decide +kernel
  obtain ⟨answers, s, hrun, htells⟩ := run_answers sharedValue hops
  obtain rfl : answers = sharedValueAnswers := by
    rw [hrun] at heval
    exact Option.some.inj heval
  exact ⟨hops, s, hrun, htells⟩

end Session

end RdfIndex
