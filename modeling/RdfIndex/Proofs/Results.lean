/-!
# Results taken apart

A computation that may fail and does not has steps that do not fail.
-/

namespace RdfIndex

variable {ε α β : Type}

theorem ok_of_bind {x : Except ε α} {f : α → Except ε β} {b : β} (h : (x >>= f) = .ok b) :
    ∃ a, x = .ok a ∧ f a = .ok b := by
  cases x with
  | error e => cases h
  | ok a => exact ⟨a, rfl, h⟩

theorem ok_bind (a : α) (f : α → Except ε β) : ((.ok a : Except ε α) >>= f) = f a := rfl

/-- A computation with a guard in front succeeds only if the guard lets it. -/
theorem ok_of_guard {c : Prop} [Decidable c] {e : ε} {x : Except ε α} {a : α}
    (h : (if c then .error e else x) = .ok a) : ¬ c ∧ x = .ok a := by
  split at h
  · cases h
  · next hc => exact ⟨hc, h⟩

/-- A computation whose second step succeeds or not whatever the first one gives succeeds if both
steps do. -/
theorem exists_ok_bind_iff {x : Except ε α} {f : α → Except ε β} {P : Prop}
    (h : ∀ a, (∃ b, f a = .ok b) ↔ P) : (∃ b, (x >>= f) = .ok b) ↔ (∃ a, x = .ok a) ∧ P := by
  constructor
  · rintro ⟨b, hb⟩
    obtain ⟨a, ha, hb⟩ := ok_of_bind hb
    exact ⟨⟨a, ha⟩, (h a).1 ⟨b, hb⟩⟩
  · rintro ⟨⟨a, rfl⟩, hP⟩
    exact (h a).2 hP

/-- A last step that gives a result of its own does not fail. -/
theorem exists_ok_bind_pure_iff {x : Except ε α} {f : α → β} :
    (∃ b, (x >>= fun a => .ok (f a)) = .ok b) ↔ ∃ a, x = .ok a :=
  (exists_ok_bind_iff fun a => ⟨fun _ => trivial, fun _ => ⟨f a, rfl⟩⟩).trans
    (iff_of_eq (and_true _))

theorem ok_of_map {x : Except ε α} {f : α → β} {b : β} (h : x.map f = .ok b) :
    ∃ a, x = .ok a ∧ f a = b := by
  cases x with
  | error e => cases h
  | ok a => exact ⟨a, rfl, Except.ok.inj h⟩

theorem exists_ok_map_iff {x : Except ε α} {f : α → β} :
    (∃ b, x.map f = .ok b) ↔ ∃ a, x = .ok a := by
  cases x with
  | error e => exact ⟨fun ⟨_, h⟩ => (by cases h), fun ⟨_, h⟩ => (by cases h)⟩
  | ok a => exact ⟨fun _ => ⟨a, rfl⟩, fun _ => ⟨_, rfl⟩⟩

theorem ok_of_toOption {x : Except ε α} {a : α} (h : x.toOption = some a) : x = .ok a := by
  cases x with
  | error e => cases h
  | ok b =>
    cases h
    rfl

theorem ok_of_isSome {x : Except ε α} (h : x.toOption.isSome = true) : ∃ a, x = .ok a := by
  obtain ⟨a, ha⟩ := Option.isSome_iff_exists.1 h
  exact ⟨a, ok_of_toOption ha⟩

theorem ok_of_any {x : Except ε α} {p : α → Bool} (h : x.toOption.any p = true) :
    ∃ a, x = .ok a ∧ p a = true := by
  obtain ⟨a, ha, hp⟩ := (Option.any_eq_true p x.toOption).1 h
  exact ⟨a, ok_of_toOption ha, hp⟩

/-- What is given is mapped, and nothing is given where nothing was. -/
theorem ok_of_mapM {x : Option α} {f : α → Except ε β} {b : Option β} (h : x.mapM f = .ok b) :
    (x = none ∧ b = none) ∨ ∃ a c, x = some a ∧ f a = .ok c ∧ b = some c := by
  cases x with
  | none =>
    cases h
    exact .inl ⟨rfl, rfl⟩
  | some a =>
    obtain ⟨c, hc, hb⟩ := ok_of_map (x := f a) (f := some) h
    exact .inr ⟨a, c, rfl, hc, hb.symm⟩

theorem exists_ok_mapM_iff {x : Option α} {f : α → Except ε β} :
    (∃ b, x.mapM f = .ok b) ↔ ∀ a ∈ x, ∃ b, f a = .ok b := by
  cases x with
  | none => exact ⟨fun _ => nofun, fun _ => ⟨none, rfl⟩⟩
  | some a =>
    constructor
    · rintro ⟨b, hb⟩ a' ha
      cases ha
      obtain ⟨c, hc, _⟩ := ok_of_map (x := f a) (f := some) hb
      exact ⟨c, hc⟩
    · intro h
      obtain ⟨c, hc⟩ := h a rfl
      exact ⟨some c, congrArg (Except.map some) hc⟩

/-- A list whose members are all mapped is mapped, each member to what it is mapped to alone. -/
theorem mapM_ok {f : α → Except ε β} {as : List α} (h : ∀ a ∈ as, ∃ b, f a = .ok b) :
    ∃ bs, as.mapM f = .ok bs ∧ as.map f = bs.map .ok := by
  induction as with
  | nil => exact ⟨[], rfl, rfl⟩
  | cons a as ih =>
    obtain ⟨ha, has⟩ := List.forall_mem_cons.1 h
    obtain ⟨b, hb⟩ := ha
    obtain ⟨bs, hbs, hmap⟩ := ih has
    refine ⟨b :: bs, ?_, ?_⟩
    · rw [List.mapM_cons, hb, hbs]
      rfl
    · rw [List.map_cons, List.map_cons, hb, hmap]

/-- A list is mapped if and only if its members are, and to what they are mapped to. -/
theorem mapM_eq_ok_iff {f : α → Except ε β} {as : List α} {bs : List β} : as.mapM f = .ok bs
    ↔ (∀ a ∈ as, ∃ b, f a = .ok b) ∧ as.filterMap (fun a => (f a).toOption) = bs := by
  induction as generalizing bs with
  | nil => exact ⟨fun h => ⟨nofun, Except.ok.inj h⟩, fun h => congrArg Except.ok h.2⟩
  | cons a as ih =>
    have hfirst : ∀ {b : β}, f a = .ok b → (a :: as).filterMap (fun a => (f a).toOption)
        = b :: as.filterMap (fun a => (f a).toOption) :=
      fun hb => List.filterMap_cons_some (congrArg Except.toOption hb)
    rw [List.mapM_cons, List.forall_mem_cons]
    constructor
    · intro h
      obtain ⟨b, hb, h⟩ := ok_of_bind h
      obtain ⟨later, hlater, h⟩ := ok_of_bind h
      cases h
      obtain ⟨hall, rfl⟩ := ih.1 hlater
      exact ⟨⟨⟨b, hb⟩, hall⟩, hfirst hb⟩
    · rintro ⟨⟨⟨b, hb⟩, hall⟩, rfl⟩
      rw [hb, ih.2 ⟨hall, rfl⟩, hfirst hb]
      rfl

/-- A computation that fails with one error where something holds, and nowhere else. -/
theorem ok_iff_not {x : Except ε α} {e : ε} {P : Prop}
    (h : (P ∧ x = .error e) ∨ (¬ P ∧ ∃ a, x = .ok a)) :
    ((∃ a, x = .ok a) ↔ ¬ P) ∧ (x = .error e ↔ P) := by
  rcases h with ⟨hP, rfl⟩ | ⟨hP, a, rfl⟩
  · refine ⟨⟨?_, fun hnot => absurd hP hnot⟩, fun _ => hP, fun _ => rfl⟩
    rintro ⟨a, ha⟩
    cases ha
  · refine ⟨⟨fun _ => hP, fun _ => ⟨a, rfl⟩⟩, ?_, fun h => absurd h hP⟩
    intro h
    cases h

/-- A list whose members fail with one error, if they fail, fails with it as soon as one does. -/
theorem mapM_error {f : α → Except ε β} {e : ε} {as : List α}
    (h : ∀ a ∈ as, f a = .error e ∨ ∃ b, f a = .ok b) (he : ∃ a ∈ as, f a = .error e) :
    as.mapM f = .error e := by
  induction as with
  | nil =>
    obtain ⟨a, ha, _⟩ := he
    cases ha
  | cons a as ih =>
    obtain ⟨ha, has⟩ := List.forall_mem_cons.1 h
    rw [List.mapM_cons]
    rcases ha with ha | ⟨b, hb⟩
    · rw [ha]
      rfl
    · obtain ⟨a', hmem, herror⟩ := he
      rcases List.mem_cons.1 hmem with rfl | hmem
      · rw [hb] at herror
        cases herror
      · rw [hb, ih has ⟨a', hmem, herror⟩]
        rfl

end RdfIndex
