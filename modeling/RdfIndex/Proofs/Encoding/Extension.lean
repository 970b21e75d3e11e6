import RdfIndex.Proofs.Encoding.Read
import RdfIndex.Proofs.Vocabulary.Extension

/-!
# Stored bytes keep their meaning

A reader looks things up in a vocabulary only by hash, and goes on only when it finds them.  So what
is read with one vocabulary is read, with the same bytes taken, with every vocabulary that finds
more (`Codec.read_mono`).  The vocabulary of more entries is such a one, which is
`Codec.decode_build_append`: bytes that were stored keep their value when entries are added.
-/

namespace RdfIndex

/-! ## Readers that read more -/

namespace Reader

variable {α β : Type}

/-- What one reader reads the other one reads as well, with the same bytes taken. -/
def LiftsTo (r r' : Reader α) : Prop :=
  ∀ (c : Cursor) (a : α) (c' : Cursor), r c = (.ok a, c') → r' c = (.ok a, c')

theorem LiftsTo.refl (r : Reader α) : LiftsTo r r := fun _ _ _ h => h

theorem LiftsTo.bind {r r' : Reader α} {f f' : α → Reader β} (hr : LiftsTo r r')
    (hf : ∀ a, LiftsTo (f a) (f' a)) : LiftsTo (r >>= f) (r' >>= f') := by
  intro c b c' h
  obtain ⟨a, c1, hfirst, hthen⟩ := of_bind_ok h
  rw [bind_ok (hr c a c1 hfirst)]
  exact hf a c1 b c' hthen

theorem LiftsTo.map {r r' : Reader α} (f : α → β) (h : LiftsTo r r') :
    LiftsTo (f <$> r) (f <$> r') :=
  h.bind fun _ => .refl _

theorem LiftsTo.found {entry entry' : Option α} (h : ∀ a, entry = some a → entry' = some a)
    (missing : DecodeError) : LiftsTo (found entry missing) (found entry' missing) := by
  intro c a c' hfound
  cases entry with
  | none => cases hfound
  | some b => rwa [h b rfl]

end Reader

open Reader (LiftsTo of_bind_ok of_check_bind_ok bind_ok check_ok_bind)

theorem Vocabulary.readIdentifierIri_mono {v v' : Vocabulary} (h : v.Below v') (slash : Bool) :
    LiftsTo (v.readIdentifierIri slash) (v'.readIdentifierIri slash) :=
  (LiftsTo.refl _).bind fun hash =>
    (LiftsTo.found (h.idNamespaces hash) _).bind fun _ => .refl _

theorem Vocabulary.readIri_mono {v v' : Vocabulary} (h : v.Below v') (form : IriForm) :
    LiftsTo (v.readIri form) (v'.readIri form) := by
  cases form with
  | whole => exact .refl _
  | afterStart => exact .refl _
  | inNamespace =>
    exact (LiftsTo.refl _).bind fun hash =>
      (LiftsTo.found (h.namespaces hash) _).bind fun _ => .refl _
  | identifier => exact readIdentifierIri_mono h false
  | identifierSlash => exact readIdentifierIri_mono h true
  | wellKnown => exact (LiftsTo.refl _).bind fun hash => LiftsTo.found (h.iris hash) _

namespace Codec

variable {codec codec' : Codec} {member member' : Bytes → Except DecodeError Term}

/-- Of the forms of literals one refers to the vocabulary. -/
theorem readLiteral_mono (h : codec.vocabulary.Below codec'.vocabulary) (form : LiteralForm) :
    LiftsTo (codec.readLiteral form) (codec'.readLiteral form) := by
  cases form with
  | taggedHash =>
    exact (LiftsTo.refl _).bind fun hash =>
      (LiftsTo.found (h.languages hash) _).bind fun _ => .refl _
  | _ => exact .refl _

theorem readDatatyped_mono {c c' : Cursor} {t : Term}
    (hm : ∀ d t, d.length < c.rest.length → member d = .ok t → member' d = .ok t)
    (h : readDatatyped member c = (.ok t, c')) : readDatatyped member' c = (.ok t, c') := by
  obtain ⟨d, c1, hd, h⟩ := of_bind_ok h
  obtain ⟨datatype, hread, h⟩ := of_check_bind_ok h
  have hlength := Reader.length_of_withLength hd
  rw [readDatatyped, bind_ok hd, check_ok_bind (hm d datatype (by omega) hread)]
  exact h

theorem readTriple_mono {c c' : Cursor} {t : Term}
    (hm : ∀ d t, d.length < c.rest.length → member d = .ok t → member' d = .ok t)
    (h : readTriple member c = (.ok t, c')) : readTriple member' c = (.ok t, c') := by
  obtain ⟨s, c1, hs, h⟩ := of_bind_ok h
  obtain ⟨subject, hsubject, h⟩ := of_check_bind_ok h
  obtain ⟨p, c2, hp, h⟩ := of_bind_ok h
  obtain ⟨predicate, hpredicate, h⟩ := of_check_bind_ok h
  obtain ⟨o, c3, ho, h⟩ := of_bind_ok h
  obtain ⟨object, hobject, h⟩ := of_check_bind_ok h
  -- The members are shorter than the region they are read from.
  have hslength := Reader.length_of_withLength hs
  have hplength := Reader.length_of_withLength hp
  have holength : o = c2.rest := (Except.ok.inj (congrArg Prod.fst ho)).symm
  rw [readTriple, bind_ok hs, check_ok_bind (hm s subject (by omega) hsubject), bind_ok hp,
    check_ok_bind (hm p predicate (by omega) hpredicate), bind_ok ho,
    check_ok_bind (hm o object (by rw [holength]; omega) hobject)]
  exact h

/-- One level is read with more entries as it is with fewer, if its members are. -/
theorem readPayload_mono (hv : codec.vocabulary.Below codec'.vocabulary) {c c' : Cursor} {t : Term}
    (tag : Tag) (hm : ∀ d t, d.length < c.rest.length → member d = .ok t → member' d = .ok t)
    (h : codec.readPayload member tag c = (.ok t, c')) :
    codec'.readPayload member' tag c = (.ok t, c') := by
  cases tag with
  | iri form => exact (Vocabulary.readIri_mono hv form).map Term.iri c t c' h
  | blank => exact h
  | literal form => exact (readLiteral_mono hv form).map Term.literal c t c' h
  | datatyped => exact readDatatyped_mono hm h
  | triple => exact readTriple_mono hm h

theorem finish_eq_ok_iff {α : Type} {result : Except DecodeError α × Cursor} {a : α} :
    finish result = .ok a ↔ ∃ c, result = (.ok a, c) ∧ c.rest = [] := by
  obtain ⟨value, c⟩ := result
  cases value with
  | error e =>
    constructor
    · intro h
      cases h
    · rintro ⟨_, h, _⟩
      cases h
  | ok b =>
    rw [finish]
    constructor
    · intro h
      split at h
      · next hrest =>
        cases h
        exact ⟨c, rfl, hrest⟩
      · cases h
    · rintro ⟨_, h, hrest⟩
      cases h
      exact if_pos hrest

/-- What is read with a vocabulary is read with one that finds more.  The induction is on the length
of the region, since members are read from regions of their own. -/
theorem read_mono (hv : codec.vocabulary.Below codec'.vocabulary) :
    LiftsTo codec.read codec'.read := by
  intro c t c' h
  induction hn : c.rest.length using Nat.strongRecOn generalizing c t c' with
  | ind n ih =>
    rw [read_eq] at h ⊢
    obtain ⟨tag, c1, htag, h⟩ := of_bind_ok h
    have hlength := length_of_readTag htag
    rw [bind_ok htag]
    refine readPayload_mono hv tag (fun d t hd hread => ?_) h
    obtain ⟨c2, hread, hrest⟩ := finish_eq_ok_iff.1 hread
    exact finish_eq_ok_iff.2 ⟨c2, ih d.length (by omega) _ t c2 hread rfl, hrest⟩

theorem decode_mono (hv : codec.vocabulary.Below codec'.vocabulary) {bytes : Bytes}
    {position : Nat} {result : Term × Nat} (h : codec.decode bytes position = .ok result) :
    codec'.decode bytes position = .ok result := by
  obtain ⟨c, hc, h⟩ := ok_of_bind h
  obtain ⟨t, hread, h⟩ := ok_of_bind h
  obtain ⟨c', hread, hrest⟩ := finish_eq_ok_iff.1 hread
  have hread' : finish (codec'.read c) = .ok t :=
    finish_eq_ok_iff.2 ⟨c', read_mono hv c t c' hread, hrest⟩
  rw [decode, hc]
  show (finish (codec'.read c) >>= _) = _
  rw [hread']
  exact h

/-- Entries that are added to a vocabulary do not change what stored bytes mean: what is decoded
without them is decoded with them, to the same value and with the same bytes taken.  The other way
round, fewer entries give the same value or none. -/
theorem decode_build_append (e more : VocabularyEntries) (v v' : Vocabulary)
    (h : Vocabulary.build e = .ok v) (h' : Vocabulary.build (e ++ more) = .ok v')
    (threshold threshold' : Nat) (bytes : Bytes) (position : Nat) :
    (∀ (t : Term) (used : Nat), decode ⟨v, threshold⟩ bytes position = .ok (t, used) →
      decode ⟨v', threshold'⟩ bytes position = .ok (t, used))
    ∧ ∀ (t : Term) (used : Nat), decode ⟨v', threshold'⟩ bytes position = .ok (t, used) →
      decode ⟨v, threshold⟩ bytes position = .ok (t, used)
        ∨ ∃ error, decode ⟨v, threshold⟩ bytes position = .error error := by
  have hbelow := Vocabulary.below_of_build h h'
  have hforth : ∀ result, decode ⟨v, threshold⟩ bytes position = .ok result →
      decode ⟨v', threshold'⟩ bytes position = .ok result := fun _ => decode_mono hbelow
  refine ⟨fun t used => hforth (t, used), fun t used hmore => ?_⟩
  cases hless : decode ⟨v, threshold⟩ bytes position with
  | error e => exact .inr ⟨e, rfl⟩
  | ok result =>
    have hsame := hforth result hless
    rw [hmore] at hsame
    exact .inl hsame.symm

/-- An IRI and a language. -/
def twoEntries : VocabularyEntries := ⟨["urn:a"], [], ["en"], []⟩

/-- An entry for every table. -/
def moreEntries : VocabularyEntries :=
  ⟨["urn:b"], ["http://example.org/"], ["fr"], [⟨"urn:id:", .hex, none⟩]⟩

/-- A quoted triple after one byte of something else. -/
def storedTriple : Bytes := [0xFF, 0x18, 2, 0x10, 0x62, 3, 0x06, 0x79, 0xAC, 0x23, 0x10, 0x5E, 0x78]

theorem decode_build_append_storedTriple : ∃ v v',
    Vocabulary.build twoEntries = .ok v ∧ Vocabulary.build (twoEntries ++ moreEntries) = .ok v'
      ∧ decode ⟨v, defaultThreshold⟩ storedTriple 1
        = .ok (.triple (.blank "b") "urn:a" (.literal (.lang "x" "en")), 12)
      ∧ decode ⟨v', defaultThreshold⟩ storedTriple 1
        = .ok (.triple (.blank "b") "urn:a" (.literal (.lang "x" "en")), 12) := by
  have hdecoded : (Vocabulary.build twoEntries).toOption.any (fun v =>
      (decode ⟨v, defaultThreshold⟩ storedTriple 1).toOption
        == some (.triple (.blank "b") "urn:a" (.literal (.lang "x" "en")), 12)) = true := by
    decide +kernel
  obtain ⟨v, hv, hdecode⟩ := ok_of_any hdecoded
  obtain ⟨v', hv'⟩ := ok_of_isSome
    (show (Vocabulary.build (twoEntries ++ moreEntries)).toOption.isSome = true by decide +kernel)
  have hless := ok_of_toOption (beq_iff_eq.1 hdecode)
  exact ⟨v, v', hv, hv', hless, (decode_build_append twoEntries moreEntries v v' hv hv'
    defaultThreshold defaultThreshold storedTriple 1).1 _ _ hless⟩

end Codec

end RdfIndex
