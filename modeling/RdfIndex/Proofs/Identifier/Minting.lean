import RdfIndex.Identifier.Basic
import RdfIndex.Proofs.Text.Base64Url
import RdfIndex.Proofs.Vocabulary.Collisions

/-!
# Minted IRIs

An identifier and the IRI that is minted for it determine each other: an IRI carries an identifier
if and only if it is the one that is minted for it (`IdFactory.recover?_eq_some_iff`).  Base64url
has other texts that could be read as the same bytes, and only the one that is written counts.

A minted IRI is stored as the bytes of the identifier (`encodeIri_mint`).  The namespace of minted
IRIs is the first one of the standard entries, so it is tried before all others, whatever entries
are added.  Well-known IRIs come before all namespaces, and no standard one is a minted IRI.
-/

namespace RdfIndex

/-! ## Built vocabularies -/

namespace HashTable

variable {α : Type} {text : α → String} [DecidableEq α]

/-- The first of all entries comes first in their table. -/
theorem entries_insert_empty (text : α → String) (a : α) : ∃ t : HashTable α text,
    empty.insert a = .ok t ∧ t.entries = [(textHash (text a), a)] :=
  ⟨_, rfl, rfl⟩

theorem first_of_insertAll {a : α} {as : List α} {t : HashTable α text}
    (h : empty.insertAll (a :: as) = .ok t) :
    ∃ later, t.entries = (textHash (text a), a) :: later := by
  obtain ⟨t1, hinsert, hentries⟩ := entries_insert_empty text a
  rw [insertAll, hinsert] at h
  obtain ⟨later, hlater⟩ := prefix_of_insertAll h
  exact ⟨later, by rw [← hlater, hentries]; rfl⟩

theorem first_of_insertFree (a : α) (as : List α) : ∃ later,
    (empty.insertFree (a :: as) : HashTable α text).entries = (textHash (text a), a) :: later := by
  obtain ⟨t1, hinsert, hentries⟩ := entries_insert_empty text a
  rw [insertFree, hinsert]
  obtain ⟨later, hlater⟩ := prefix_of_insertFree as t1
  exact ⟨later, by rw [← hlater, hentries]; rfl⟩

end HashTable

namespace Vocabulary

variable {v : Vocabulary} {e : VocabularyEntries}

/-- A vocabulary is built from some entries, be it that a collision would have refused them or that
it leaves an entry out. -/
def BuiltFrom (v : Vocabulary) (e : VocabularyEntries) : Prop :=
  build e = .ok v ∨ v = buildFirst e

/-- The first namespace of identifiers is tried first. -/
theorem BuiltFrom.first_idNamespace (h : v.BuiltFrom e) {n : IdNamespace} {rest : List IdNamespace}
    (hfirst : e.idNamespaces = n :: rest) :
    ∃ later, v.idNamespaces.entries = (textHash n.ns, n) :: later := by
  rcases h with h | rfl
  · obtain ⟨_, _, h⟩ := ok_of_bind h
    obtain ⟨_, _, h⟩ := ok_of_bind h
    obtain ⟨_, _, h⟩ := ok_of_bind h
    obtain ⟨table, htable, h⟩ := ok_of_bind h
    cases h
    rw [hfirst] at htable
    exact HashTable.first_of_insertAll (ok_of_buildTable htable)
  · rw [buildFirst, hfirst]
    exact HashTable.first_of_insertFree n rest

/-- Only IRIs that were given are well-known. -/
theorem BuiltFrom.mem_iris (h : v.BuiltFrom e) {iri : String} {hash : UInt16}
    (hhash : v.iris.hashOf? iri = some hash) : iri ∈ e.iris := by
  have hmem := (HashTable.hashOf?_eq_some_iff.1 hhash).1
  rcases h with h | rfl
  · exact ((lists_of_build h).iris.hashOf? iri hash).1 hhash |>.1
  · exact (HashTable.mem_of_mem_insertFree e.iris hmem).resolve_left List.not_mem_nil

end Vocabulary

/-! ## Local names -/

theorem TextEncoding.decodeCanonical?_base64Url {text : String} {bytes : Bytes} :
    base64Url.decodeCanonical? text = some bytes ↔ Base64Url.encode bytes = text := by
  rw [decodeCanonical?, Option.filter_eq_some_iff]
  constructor
  · rintro ⟨_, heq⟩
    exact beq_iff_eq.1 heq
  · rintro rfl
    have hread : (Base64Url.read (Base64Url.encode bytes)).toOption = some bytes := by
      rw [Base64Url.toOption_read, Base64Url.decode_encode]
    exact ⟨hread, beq_self_eq_true _⟩

theorem TextEncoding.decodeCanonical?_encodeChars (bytes : Bytes) :
    base64Url.decodeCanonical? (String.ofList (Base64Url.encodeChars bytes)) = some bytes :=
  decodeCanonical?_base64Url.2 rfl

theorem IriStart.strip?_eq_some_iff {start text rest : List Char} :
    strip? start text = some rest ↔ start ++ rest = text := by
  refine ⟨append_of_strip?, ?_⟩
  rintro rfl
  rw [strip?, if_pos (List.isPrefixOf_iff_prefix.2 (List.prefix_append _ _)), List.drop_left]

namespace IdFactory

variable {f : IdFactory} {id : Identifier} {t : Term}

theorem toList_mint (id : Identifier) :
    (mint id).toList = Internal.valueIds.toList ++ Base64Url.encodeChars id.bytes := by
  rw [mint, String.toList_append, Base64Url.encode, String.toList_ofList]

/-- A term carries an identifier if and only if it is the IRI that is minted for it. -/
theorem recover?_eq_some_iff :
    f.recover? t = some id ↔ t = .iri (mint id) ∧ id.bytes.length = f.config.size := by
  constructor
  · intro h
    obtain ⟨iri, hiri, h⟩ := Option.bind_eq_some_iff.1 h
    obtain ⟨localName, hstrip, h⟩ := Option.bind_eq_some_iff.1 h
    obtain ⟨bytes, hdecode, h⟩ := Option.bind_eq_some_iff.1 h
    have hencode := TextEncoding.decodeCanonical?_base64Url.1 hdecode
    have hid := ok_of_toOption h
    rw [ofBytes] at hid
    split at hid
    · next hsize =>
      cases hid
      cases t with
      | iri text =>
        cases hiri
        refine ⟨congrArg Term.iri (String.ext_iff.2 ?_), hsize⟩
        rw [mint, hencode, String.toList_append, String.toList_ofList,
          IriStart.append_of_strip? hstrip]
      | blank label => cases hiri
      | literal l => cases hiri
      | triple s p o => cases hiri
    · cases hid
  · rintro ⟨rfl, hsize⟩
    have hstrip := IriStart.strip?_eq_some_iff.2 (toList_mint id).symm
    have hid : (f.ofBytes id.bytes).toOption = some id := by
      rw [ofBytes, if_pos hsize]
      rfl
    refine Option.bind_eq_some_iff.2 ⟨_, hstrip, ?_⟩
    exact Option.bind_eq_some_iff.2 ⟨_, TextEncoding.decodeCanonical?_encodeChars id.bytes, hid⟩

/-! ## Stored forms -/

/-- The local name of a minted IRI is read as the bytes of the identifier. -/
theorem matchIn?_mint (h : id.bytes ≠ []) :
    Vocabulary.matchIn? (mint id).toList ⟨Internal.valueIds, .base64Url, none⟩
      = some (id.bytes, false) := by
  have hstrip := IriStart.strip?_eq_some_iff.2 (toList_mint id).symm
  have hslash : (Base64Url.encodeChars id.bytes).getLast? ≠ some '/' := fun hlast =>
    Base64Url.slash_not_mem_encodeChars id.bytes (List.mem_of_getLast? hlast)
  have hne : String.ofList (Base64Url.encodeChars id.bytes) ≠ "" := fun heq =>
    Base64Url.encodeChars_ne_nil h (by simpa using congrArg String.toList heq)
  rw [Vocabulary.matchIn?]
  simp only [hstrip, Vocabulary.dropSlash, if_neg hslash, IdNamespace.decodeLocal?, if_neg hne,
    TextEncoding.decodeCanonical?_encodeChars]
  rfl

/-- No standard well-known IRI is a minted one: the default context is in no namespace of
identifiers, and all others start with another letter. -/
theorem mint_not_mem_standardIris (id : Identifier) : mint id ∉ VocabularyEntries.standardIris := by
  -- Bytes are compared, since the kernel is slow to cut texts into characters.
  have hletters : ∀ iri ∈ VocabularyEntries.standardIris,
      iri.toByteArray.data[0]? = some 0x68 ∨ iri = Internal.defaultContext := by
    decide +kernel
  have hletter : (mint id).toByteArray.data[0]? = some 0x75 := by
    rw [mint, String.toByteArray_append, ByteArray.data_append,
      Array.getElem?_append_left (by decide)]
    decide
  intro hmem
  rcases hletters _ hmem with hother | heq
  · rw [hletter] at hother
    exact absurd hother (by decide)
  · have hprefix : Internal.valueIds.toList <+: Internal.defaultContext.toList := by
      rw [← heq, toList_mint]
      exact List.prefix_append _ _
    exact absurd hprefix (by decide)

/-- A minted IRI that is not well-known is stored as the bytes of the identifier. -/
theorem encodeIri_mint {v : Vocabulary} {more : VocabularyEntries}
    (hv : v.BuiltFrom (.standard ++ more)) (hid : id.bytes ≠ []) (hmore : mint id ∉ more.iris) :
    v.encodeIri (mint id)
      = ⟨.iri .identifier, hashBytes (textHash Internal.valueIds) ++ id.bytes⟩ := by
  have hunknown : v.iris.hashOf? (mint id) = none := by
    rw [Option.eq_none_iff_forall_ne_some]
    intro hash hhash
    rcases List.mem_append.1 (hv.mem_iris hhash) with hmem | hmem
    · exact mint_not_mem_standardIris id hmem
    · exact hmore hmem
  obtain ⟨later, hlater⟩ := hv.first_idNamespace
    (rfl : _ = (⟨Internal.valueIds, .base64Url, none⟩ : IdNamespace) :: _)
  have hmatch : v.matchId? (mint id) = some ⟨textHash Internal.valueIds, id.bytes, false⟩ := by
    rw [Vocabulary.matchId?, hlater, List.findSome?_cons]
    simp only [matchIn?_mint hid]
    rfl
  rw [Vocabulary.encodeIri, hunknown]
  simp only [hmatch]
  rfl

/-- Minted IRIs and identifiers correspond one to one.  A term carries an identifier if and only if
the identifier has the size of the factory's and the term is the IRI that is minted for it.  With a
vocabulary of the standard entries and more, the minted IRI is stored as the bytes of the identifier
after the hash of their namespace, unless it was added as a well-known IRI. -/
theorem mint_corresponds (f : IdFactory) :
    (∀ t id, f.recover? t = some id ↔ t = .iri (mint id) ∧ id.bytes.length = f.config.size)
    ∧ ∀ more v, Vocabulary.BuiltFrom v (.standard ++ more) → ∀ threshold id,
      id.bytes.length = f.config.size → mint id ∉ more.iris →
        Codec.encode ⟨v, threshold⟩ (.iri (mint id))
          = .ok ⟨.iri .identifier, hashBytes (textHash Internal.valueIds) ++ id.bytes⟩ := by
  refine ⟨fun t id => recover?_eq_some_iff, fun more v hv threshold id hsize hmore => ?_⟩
  have hid : id.bytes ≠ [] := List.ne_nil_of_length_pos (hsize ▸ f.config.size_pos)
  exact congrArg Except.ok (encodeIri_mint hv hid hmore)

/-- Identifiers of four bytes, so that the last symbol has bits to spare. -/
def fourByteFactory : IdFactory := ⟨⟨.sipHash, 4, true, by decide, by decide⟩, .standard⟩

/-- The last of the symbols has zeros in its lower bits.  With others there, the bytes would be the
same, and no identifier is recovered. -/
theorem mint_corresponds_fourBytes :
    mint ⟨[0xFB, 0xFF, 0xBF, 0xFF]⟩ = "urn:quadkey:id:-_-__w"
    ∧ fourByteFactory.recover? (.iri "urn:quadkey:id:-_-__w") = some ⟨[0xFB, 0xFF, 0xBF, 0xFF]⟩
    ∧ fourByteFactory.recover? (.iri "urn:quadkey:id:-_-__x") ≠ some ⟨[0xFB, 0xFF, 0xBF, 0xFF]⟩
    ∧ Codec.standard.encode (.iri "urn:quadkey:id:-_-__w")
      = .ok ⟨.iri .identifier,
        hashBytes (textHash Internal.valueIds) ++ [0xFB, 0xFF, 0xBF, 0xFF]⟩ := by
  obtain ⟨hrecover, hencode⟩ := mint_corresponds fourByteFactory
  have hmint : mint ⟨[0xFB, 0xFF, 0xBF, 0xFF]⟩ = "urn:quadkey:id:-_-__w" := by decide +kernel
  refine ⟨hmint, (hrecover _ _).2 ⟨congrArg Term.iri hmint.symm, rfl⟩, ?_, ?_⟩
  · rw [Ne, hrecover, hmint]
    rintro ⟨heq, _⟩
    exact absurd (Term.iri.inj heq) (by decide)
  · have hstored := hencode .empty .standard (.inr rfl) Codec.defaultThreshold
      ⟨[0xFB, 0xFF, 0xBF, 0xFF]⟩ rfl List.not_mem_nil
    rwa [hmint] at hstored

end IdFactory

end RdfIndex
