import RdfIndex.Proofs.Results
import RdfIndex.Proofs.Statement.Fork

/-!
# Forks that a condition rules out

Where a condition can rule a fork out, the key hash starts with the descriptor, and the condition is
asked about a few probes only.  The probe that stands for an identifier of the fork has its first
bits, its descriptor, and zeros (`probe`).  The descriptor agrees with the bits of the fork, be they
fewer or more than four (`mem_forkDescriptors`), so that this probe is one of those that are asked
about (`probe_mem_forkProbes`), and each of them is an identifier of the fork that stands for itself
(`inFork_of_mem_forkProbes`).

So a condition rules a fork out if and only if it rejects the probes of its identifiers.  It then
rejects the identifiers as well if it accepts no identifier without its probe, as a condition does
that asks for nothing but descriptors (`accept_eq_false`).  Other conditions look at bits in which
an identifier and its probe differ, and such a condition can rule out a fork with an identifier that
it accepts (`partitionScan_prunes`).
-/

namespace RdfIndex.Layout

variable {l : Layout} {order : Order} {p : Pattern} {role : Role} {bits count d f : Nat}
  {id : Identifier} {accept : Identifier → Bool}

/-- A condition asks for nothing but the descriptors of identifiers. -/
def AsksRoles (l : Layout) (accept : Identifier → Bool) : Prop :=
  ∀ id id', l.factory.roles id = l.factory.roles id' → accept id = accept id'

/-- An identifier that may be filed in a fork. -/
structure InFork (l : Layout) (order : Order) (role : Role) (bits f : Nat) (id : Identifier) :
    Prop where
  length_eq : id.bytes.length = l.idSize
  leading_eq : Bytes.leading bits (l.keyHash order role id) = f

/-- The probe that stands for an identifier: its first bits, its descriptor, and zeros. -/
def probe (l : Layout) (bits : Nat) (id : Identifier) : Identifier :=
  ⟨(l.factory.roles id).pack l.factory.config.nibble
    (leadingBits l.idSize bits (Bytes.leading bits id.bytes))⟩

/-! ## Descriptors of a fork -/

/-- The upper half of the first byte agrees with the first bits, as far as they reach. -/
theorem mem_forkDescriptors {b : UInt8} {bytes : Bytes} (hbits : bits ≤ 8 * (b :: bytes).length) :
    b.toNat / 16 ∈ forkDescriptors bits (Bytes.leading bits (b :: bytes)) := by
  have hb := b.toNat_lt
  have hfew : min bits 4 ≤ bits := Nat.min_le_left bits 4
  have hfixed : min bits 4 ≤ 4 := Nat.min_le_right bits 4
  have hexponent : 4 + (4 - min bits 4) = 8 - min bits 4 := by omega
  have hhalf : b.toNat / 16 / 2 ^ (4 - min bits 4) = b.toNat / 2 ^ (8 - min bits 4) := by
    rw [show 16 = 2 ^ 4 from rfl, Nat.div_div_eq_div_mul, ← Nat.pow_add, hexponent]
  have hleading : Bytes.leading bits (b :: bytes) / 2 ^ (bits - min bits 4)
      = b.toNat / 2 ^ (8 - min bits 4) := by
    rw [Bytes.leading_div hfew hbits, Bytes.leading_cons (Nat.le_trans hfixed (by decide))]
  refine List.mem_filter.2 ⟨List.mem_range.2 (by omega), ?_⟩
  rw [Nat.pow_eq, Nat.pow_eq, hhalf, hleading, beq_self_eq_true]

theorem descriptor_ofDescriptor (h : d < 16) : (Roles.ofDescriptor d).descriptor = d := by
  have hall : ∀ d < 16, (Roles.ofDescriptor d).descriptor = d := by decide
  exact hall d h

/-- The first byte with a descriptor in its upper half. -/
theorem toNat_packByte (h : d < 16) (b : UInt8) :
    ((Roles.ofDescriptor d).packByte true b).toNat = d * 16 + b.toNat % 16 := by
  rw [Roles.packByte, if_pos rfl, descriptor_ofDescriptor h, UInt8.toNat_ofNat']
  omega

/-- A descriptor that agrees with the bits of a fork can be written over them. -/
theorem leading_pack {width : Nat} (hd : d ∈ forkDescriptors bits f) (hwidth : 0 < width)
    (hbits : bits ≤ 8 * width) (hf : f < 2 ^ bits) :
    Bytes.leading bits ((Roles.ofDescriptor d).pack true (leadingBits width bits f)) = f := by
  obtain ⟨hmem, hagree⟩ := List.mem_filter.1 hd
  have hd16 := List.mem_range.1 hmem
  simp only [beq_iff_eq, Nat.pow_eq] at hagree
  have hleading := leading_leadingBits hbits hf
  have hlength := length_leadingBits width bits f
  cases hbytes : leadingBits width bits f with
  | nil => exact absurd hbytes (leadingBits_ne_nil hwidth bits f)
  | cons b bytes =>
    rw [hbytes] at hleading hlength
    have hbyte := toNat_packByte hd16 b
    rw [Roles.pack]
    rcases Nat.lt_or_ge 4 bits with hmany | hfew
    · -- The descriptor is among the bits of the fork, which stay as they are.
      rw [Nat.min_eq_right (Nat.le_of_lt hmany), Nat.sub_self, Nat.pow_zero, Nat.div_one] at hagree
      have hhalf : d = b.toNat / 16 := by
        rw [hagree, ← hleading, Bytes.leading_div (Nat.le_of_lt hmany) (hlength ▸ hbits),
          Bytes.leading_cons (by decide)]
        rfl
      have hsame : (Roles.ofDescriptor d).packByte true b = b := by
        rw [← UInt8.toNat_inj, hbyte, hhalf]
        omega
      rw [hsame, hleading]
    · -- The bits of the fork are among those of the descriptor.
      rw [Nat.min_eq_left hfew, Nat.sub_self, Nat.pow_zero, Nat.div_one] at hagree
      have hexponent : 8 - bits = 4 + (4 - bits) := by omega
      rw [Bytes.leading_cons (by omega), hbyte, hexponent, Nat.pow_add, ← Nat.div_div_eq_div_mul,
        ← hagree]
      congr 1
      omega

/-! ## Probes of a fork -/

theorem showsDescriptor_iff : l.showsDescriptor order role bits = true
    ↔ bits ≠ 0 ∧ l.factory.config.nibble = true ∧ l.shift? order role = some 0 := by
  simp [showsDescriptor, and_assoc]

/-- An identifier that is not rotated starts with its key hash. -/
theorem keyHash_of_shift (h : l.shift? order role = some 0) :
    l.keyHash order role id = id.bytes.take (l.widths.get role) := by
  rw [keyHash, rotated, h]
  simp [rotateLeft]

/-- An identifier that is not rotated starts with the bits of its key hash. -/
theorem leading_keyHash (h : l.shift? order role = some 0) (hid : id.bytes.length = l.idSize)
    (hbits : bits ≤ 8 * l.widths.get role) :
    Bytes.leading bits (l.keyHash order role id) = Bytes.leading bits id.bytes := by
  have hlength : (l.keyHash order role id).length = l.widths.get role := length_keyHash hid
  rw [keyHash_of_shift h] at hlength ⊢
  rw [← Bytes.leading_append (hlength.symm ▸ hbits) (id.bytes.drop (l.widths.get role)),
    List.take_append_drop]

/-- The probe of a descriptor has that descriptor. -/
theorem roles_probe (l : Layout) (bits f d : Nat) :
    l.factory.roles ⟨(Roles.ofDescriptor d).pack l.factory.config.nibble
      (leadingBits l.idSize bits f)⟩ = Roles.ofDescriptor d :=
  Roles.unpack_pack _ _ (leadingBits_ne_nil l.idSize_pos bits f)

/-- The probe of an identifier has its descriptor. -/
theorem roles_probe_eq (l : Layout) (bits : Nat) (id : Identifier) :
    l.factory.roles (l.probe bits id) = l.factory.roles id :=
  Roles.unpack_pack _ _ (leadingBits_ne_nil l.idSize_pos bits _)

variable (hshows : l.showsDescriptor order role bits = true)
  (hbits : bits ≤ 8 * l.widths.get role)

include hshows hbits

/-- The probe of an identifier of a fork is one that a condition is asked about. -/
theorem probe_mem_forkProbes (hid : l.InFork order role bits f id) :
    l.probe bits id ∈ l.forkProbes bits f := by
  obtain ⟨-, hnibble, hshift⟩ := showsDescriptor_iff.1 hshows
  have hleading := hid.leading_eq
  rw [leading_keyHash hshift hid.length_eq hbits] at hleading
  have hsize := hid.length_eq
  have hwidth := l.width_bounds role
  obtain ⟨bytes⟩ := id
  cases bytes with
  | nil => exact absurd hsize (Nat.ne_of_lt l.idSize_pos)
  | cons b bytes =>
    have hlength : bits ≤ 8 * (b :: bytes).length := by
      rw [hsize]
      omega
    have hroles : l.factory.roles ⟨b :: bytes⟩ = Roles.ofDescriptor (b.toNat / 16) := by
      rw [IdFactory.roles, IdentifierConfig.roles, hnibble]
      rfl
    rw [probe, hroles, hleading]
    exact List.mem_map_of_mem (hleading ▸ mem_forkDescriptors hlength)

/-- A probe of a fork is an identifier of the fork and stands for itself. -/
theorem inFork_of_mem_forkProbes (hf : f < 2 ^ bits) (hid : id ∈ l.forkProbes bits f) :
    l.InFork order role bits f id ∧ l.probe bits id = id := by
  obtain ⟨-, hnibble, hshift⟩ := showsDescriptor_iff.1 hshows
  have hwidth := l.width_bounds role
  obtain ⟨d, hd, rfl⟩ := List.mem_map.1 hid
  have hleading : Bytes.leading bits ((Roles.ofDescriptor d).pack l.factory.config.nibble
      (leadingBits l.idSize bits f)) = f := by
    rw [hnibble]
    exact leading_pack hd l.idSize_pos (by omega) hf
  have hsize : ((Roles.ofDescriptor d).pack l.factory.config.nibble
      (leadingBits l.idSize bits f)).length = l.idSize := by
    rw [Roles.length_pack, length_leadingBits]
  refine ⟨⟨hsize, ?_⟩, ?_⟩
  · exact (leading_keyHash hshift hsize hbits).trans hleading
  · rw [probe, roles_probe, hleading]

omit hshows hbits

/-- A condition rules a fork out if and only if the descriptor shows in it and the condition rejects
the probes of its identifiers. -/
theorem forkMayMatch_eq_false_iff (hbits : bits ≤ 8 * l.widths.get role) (hf : f < 2 ^ bits) :
    l.forkMayMatch order role bits f accept = false
      ↔ l.showsDescriptor order role bits = true
        ∧ ∀ id, l.InFork order role bits f id → accept (l.probe bits id) = false := by
  rw [forkMayMatch, Bool.or_eq_false_iff, Bool.not_eq_false', List.any_eq_false]
  refine and_congr_right fun hshows => ⟨fun h id hid => ?_, fun h id hid => ?_⟩
  · exact Bool.eq_false_iff.2 (h _ (probe_mem_forkProbes hshows hbits hid))
  · obtain ⟨hfork, hself⟩ := inFork_of_mem_forkProbes hshows hbits hf hid
    rw [← hself]
    exact Bool.eq_false_iff.1 (h id hfork)

/-- A fork that a condition rules out has no identifier that the condition accepts. -/
theorem accept_eq_false (haccept : l.AsksRoles accept) (hid : id.bytes.length = l.idSize)
    (hbits : bits ≤ 8 * l.widths.get role)
    (hfork : Bytes.leading bits (l.keyHash order role id) = f)
    (hpruned : l.forkMayMatch order role bits f accept = false) : accept id = false := by
  have hlength : (l.keyHash order role id).length = l.widths.get role := length_keyHash hid
  have hf : f < 2 ^ bits := hfork ▸ Bytes.leading_lt (hlength.symm ▸ hbits)
  obtain ⟨_, hprobes⟩ := (forkMayMatch_eq_false_iff hbits hf).1 hpruned
  rw [← haccept _ _ (l.roles_probe_eq bits id)]
  exact hprobes id ⟨hid, hfork⟩

/-! ## Conditions that see more than a probe shows -/

theorem of_checkFork (h : l.checkFork order p role count f = .ok bits) :
    f < 2 ^ bits ∧ bits ≤ 8 * l.widths.get role := by
  obtain ⟨hpower, h⟩ := ok_of_guard h
  obtain ⟨hfork, h⟩ := ok_of_guard h
  obtain ⟨_, h⟩ := ok_of_guard h
  obtain ⟨_, h⟩ := ok_of_guard h
  obtain ⟨hbits, h⟩ := ok_of_guard h
  obtain rfl := Except.ok.inj h
  simp only [isPowerOfTwo, Nat.pow_eq, Bool.not_eq_true', Bool.not_eq_false, Bool.and_eq_true,
    beq_iff_eq] at hpower
  omega

theorem partitionScan_eq_none_iff (h : l.checkFork order p role count f = .ok bits) :
    l.partitionScan order p role count f (some accept) = .ok none
      ↔ l.forkMayMatch order role bits f accept = false := by
  rw [partitionScan, h]
  show (if l.forkMayMatch order role bits f accept then .ok (some _) else .ok none
    : Except UsageError _) = _ ↔ _
  cases l.forkMayMatch order role bits f accept <;> simp

/-- Writing a descriptor into the upper half of the first byte keeps the last bit. -/
theorem ofBigEndian_pack_mod_two (r : Roles) (bytes : Bytes) :
    Bytes.ofBigEndian (r.pack true bytes) % 2 = Bytes.ofBigEndian bytes % 2 := by
  cases bytes with
  | nil => rfl
  | cons b bytes =>
    have hbyte : (r.packByte true b).toNat % 2 = b.toNat % 2 := by
      rw [← Roles.ofDescriptor_descriptor r, toNat_packByte r.descriptor_lt]
      omega
    rw [Roles.pack, Bytes.ofBigEndian_cons, Bytes.ofBigEndian_cons, Nat.add_mod, Nat.mul_mod, hbyte,
      ← Nat.mul_mod, ← Nat.add_mod]

theorem mul_two_pow_mod_two {n : Nat} (h : 0 < n) : f * 2 ^ n % 2 = 0 := by
  obtain ⟨n, rfl⟩ := Nat.exists_eq_succ_of_ne_zero (Nat.ne_of_gt h)
  rw [Nat.pow_succ, ← Nat.mul_assoc, Nat.mul_mod_left]

/-- The condition on an identifier to end in a one. -/
def isOdd (id : Identifier) : Bool := Bytes.ofBigEndian id.bytes % 2 == 1

/-- The first identifier of a fork that ends in a one. -/
def firstOdd (l : Layout) (bits f : Nat) : Identifier :=
  ⟨Bytes.toBigEndian l.idSize (f * 2 ^ (8 * l.idSize - bits) + 1)⟩

/-- Where a fork leaves a bit open, its probes end in a zero. -/
theorem forkMayMatch_isOdd (hshows : l.showsDescriptor order role bits = true)
    (hf : f < 2 ^ bits) (hopen : bits < 8 * l.idSize) :
    l.forkMayMatch order role bits f isOdd = false := by
  obtain ⟨-, hnibble, -⟩ := showsDescriptor_iff.1 hshows
  rw [forkMayMatch, Bool.or_eq_false_iff, Bool.not_eq_false', List.any_eq_false]
  refine ⟨hshows, fun id hid => ?_⟩
  obtain ⟨d, -, rfl⟩ := List.mem_map.1 hid
  rw [isOdd, hnibble, ofBigEndian_pack_mod_two, ofBigEndian_leadingBits (Nat.le_of_lt hopen) hf,
    mul_two_pow_mod_two (Nat.sub_pos_of_lt hopen)]
  decide

/-- Where a fork leaves a bit open, it has an identifier that ends in a one. -/
theorem inFork_firstOdd (hshows : l.showsDescriptor order role bits = true)
    (hbits : bits ≤ 8 * l.widths.get role) (hf : f < 2 ^ bits) (hopen : bits < 8 * l.idSize) :
    l.InFork order role bits f (l.firstOdd bits f) ∧ isOdd (l.firstOdd bits f) = true := by
  obtain ⟨-, -, hshift⟩ := showsDescriptor_iff.1 hshows
  have hsize : (l.firstOdd bits f).bytes.length = l.idSize := Bytes.length_toBigEndian _ _
  have hunit : 2 ≤ 2 ^ (8 * l.idSize - bits) :=
    Nat.pow_le_pow_right Nat.two_pos (show 1 ≤ 8 * l.idSize - bits by omega)
  have hnumber : Bytes.ofBigEndian (l.firstOdd bits f).bytes
      = f * 2 ^ (8 * l.idSize - bits) + 1 := by
    refine Bytes.ofBigEndian_toBigEndian_of_lt ?_
    have hmul : (f + 1) * 2 ^ (8 * l.idSize - bits) ≤ 2 ^ bits * 2 ^ (8 * l.idSize - bits) :=
      Nat.mul_le_mul_right _ hf
    rw [Nat.succ_mul, Bytes.two_pow_mul (Nat.le_of_lt hopen)] at hmul
    rw [Nat.pow_eq]
    omega
  have hleading : Bytes.leading bits (l.firstOdd bits f).bytes = f := by
    have hpos := Nat.two_pow_pos (8 * l.idSize - bits)
    rw [Bytes.leading, hnumber, hsize, Nat.mul_comm, Nat.mul_add_div hpos,
      Nat.div_eq_of_lt hunit, Nat.add_zero]
  refine ⟨⟨hsize, (leading_keyHash hshift hsize hbits).trans hleading⟩, ?_⟩
  rw [isOdd, hnumber, Nat.add_mod, mul_two_pow_mod_two (Nat.sub_pos_of_lt hopen)]
  rfl

/-- Where the bits of a fork are a whole identifier, an identifier is its probe. -/
theorem probe_eq_of_whole (hshows : l.showsDescriptor order role bits = true)
    (hbits : bits ≤ 8 * l.widths.get role) (hf : f < 2 ^ bits) (hwhole : bits = 8 * l.idSize)
    (hid : l.InFork order role bits f id) : l.probe bits id = id := by
  obtain ⟨-, -, hshift⟩ := showsDescriptor_iff.1 hshows
  have hprobe := (inFork_of_mem_forkProbes hshows hbits hf
    (probe_mem_forkProbes hshows hbits hid)).1
  have hnumber : ∀ {i : Identifier}, l.InFork order role bits f i →
      Bytes.ofBigEndian i.bytes = f := by
    intro i hi
    rw [← hi.leading_eq, leading_keyHash hshift hi.length_eq hbits, Bytes.leading, hi.length_eq,
      hwhole, Nat.sub_self, Nat.pow_zero, Nat.div_one]
  have hbytes := Bytes.eq_of_ofBigEndian_eq (hprobe.length_eq.trans hid.length_eq.symm)
    ((hnumber hprobe).trans (hnumber hid).symm)
  exact congrArg Identifier.mk hbytes

/-- What it means that a condition rules a fork out.  The descriptor shows in the fork, and the
condition rejects the probe of each identifier of the fork: the first bits, the descriptor, zeros.
It then rejects all identifiers of the fork if it accepts none without its probe.  Whatever the
condition, this holds only of forks whose bits do not show the descriptor, which no condition rules
out, or are a whole identifier. -/
theorem partitionScan_prunes (l : Layout) (order : Order) (p : Pattern) (role : Role)
    (count f bits : Nat) (hcheck : l.checkFork order p role count f = .ok bits) :
    (∀ accept, l.partitionScan order p role count f (some accept) = .ok none
      ↔ l.showsDescriptor order role bits = true
        ∧ ∀ id, l.InFork order role bits f id → accept (l.probe bits id) = false)
    ∧ (∀ accept : Identifier → Bool,
      (∀ id, l.InFork order role bits f id → accept id = true → accept (l.probe bits id) = true) →
      l.partitionScan order p role count f (some accept) = .ok none →
      ∀ id, l.InFork order role bits f id → accept id = false)
    ∧ ((∀ accept, l.partitionScan order p role count f (some accept) = .ok none →
        ∀ id, l.InFork order role bits f id → accept id = false)
      ↔ l.showsDescriptor order role bits = false ∨ bits = 8 * l.idSize) := by
  obtain ⟨hf, hbits⟩ := of_checkFork hcheck
  have hwidth := l.width_bounds role
  have hpruned : ∀ accept, l.partitionScan order p role count f (some accept) = .ok none
      ↔ l.showsDescriptor order role bits = true
        ∧ ∀ id, l.InFork order role bits f id → accept (l.probe bits id) = false :=
    fun accept => (partitionScan_eq_none_iff hcheck).trans (forkMayMatch_eq_false_iff hbits hf)
  refine ⟨hpruned, fun accept haccept hnone id hid => ?_, fun hsound => ?_, fun h => ?_⟩
  · have hprobe := ((hpruned accept).1 hnone).2 id hid
    exact Bool.eq_false_iff.2 fun htrue => Bool.eq_false_iff.1 hprobe (haccept id hid htrue)
  · by_cases hwhole : bits = 8 * l.idSize
    · exact .inr hwhole
    refine .inl (Bool.eq_false_iff.2 fun hshows => ?_)
    have hopen : bits < 8 * l.idSize := by omega
    obtain ⟨hfork, hodd⟩ := inFork_firstOdd hshows hbits hf hopen
    have hnone := (partitionScan_eq_none_iff hcheck).2 (forkMayMatch_isOdd hshows hf hopen)
    rw [hsound isOdd hnone _ hfork] at hodd
    cases hodd
  · intro accept hnone id hid
    obtain ⟨hshows, hprobes⟩ := (hpruned accept).1 hnone
    rcases h with hhidden | hwhole
    · rw [hshows] at hhidden
      cases hhidden
    · rw [← probe_eq_of_whole hshows hbits hf hwhole hid]
      exact hprobes id hid

/-- The condition on an identifier of the narrow layout to be that of an IRI. -/
def narrowIri (id : Identifier) : Bool := (narrowLayout.factory.roles id).kind == .iri

theorem checkFork_narrow : narrowLayout.checkFork .spo .open_ .subject 16 8 = .ok 4 := rfl

/-- The condition to be an IRI rules out the fork of the blank nodes, which has none.  Not every
condition that rules the fork out rejects all its identifiers. -/
theorem partitionScan_prunes_narrow :
    (∀ id, narrowLayout.InFork .spo .subject 4 8 id → narrowIri id = false)
    ∧ ¬ ∀ accept, narrowLayout.partitionScan .spo .open_ .subject 16 8 (some accept) = .ok none →
      ∀ id, narrowLayout.InFork .spo .subject 4 8 id → accept id = false := by
  obtain ⟨_, hupward, hsound⟩ := partitionScan_prunes narrowLayout .spo .open_ .subject 16 8 4
    checkFork_narrow
  constructor
  · refine hupward narrowIri (fun id _ haccept => ?_)
      ((partitionScan_eq_none_iff checkFork_narrow).2 (by decide +kernel))
    rw [narrowIri, roles_probe_eq]
    exact haccept
  · rw [hsound]
    decide +kernel

/-- A fork of two identifiers is ruled out by the condition to be the second of them. -/
theorem partitionScan_prunes_accepted :
    narrowLayout.partitionScan .pos .open_ .predicate 32768 0 (some (· == ⟨[0, 1]⟩)) = .ok none
    ∧ narrowLayout.InFork .pos .predicate (Nat.log2 32768) 0 ⟨[0, 1]⟩
    ∧ ((⟨[0, 1]⟩ : Identifier) == ⟨[0, 1]⟩) = true := by
  have hcheck : narrowLayout.checkFork .pos .open_ .predicate 32768 0 = .ok 15 := rfl
  exact ⟨(partitionScan_eq_none_iff hcheck).2 (by decide +kernel),
    ⟨by decide +kernel, by decide +kernel⟩, by decide⟩

end RdfIndex.Layout
