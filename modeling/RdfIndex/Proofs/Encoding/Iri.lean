import RdfIndex.Encoding.Iri
import RdfIndex.Proofs.Bytes.Reads
import RdfIndex.Proofs.Vocabulary.References

/-!
# IRIs read back

Whichever of its forms an IRI is stored in, the reader of that form gives the IRI back.  The forms
compete, but each is tagged with itself, so that nothing has to be known about why it was taken.
-/

namespace RdfIndex.Vocabulary

open Reader (Reads ReadsAll reads_word reads_hash readsAll_rest readsAll_text)

/-- An encoded IRI: its tag is that of a form whose reader gives the IRI. -/
def ReadsIri (v : Vocabulary) (e : Encoded) (iri : String) : Prop :=
  ∃ form, e.tag = .iri form ∧ ReadsAll (v.readIri form) e.payload iri

variable {v : Vocabulary} {iri : String}

theorem readsIri_plain : ReadsIri v (encodePlainIri iri) iri := by
  rw [encodePlainIri]
  split
  · next code start hlongest =>
    obtain ⟨hcode, hstart, happend⟩ := IriStart.append_of_longest? hlongest
    refine ⟨.afterStart, rfl, ?_⟩
    have hbyte : [UInt8.ofNat code] = Bytes.toBigEndian 1 code := rfl
    show ReadsAll _ ([UInt8.ofNat code] ++ Utf8.encode (iri.toList.drop start.length)) iri
    rw [hbyte]
    refine ReadsAll.bind (reads_word _ hcode) ?_
    refine ReadsAll.found hstart ?_
    have htext := (readsAll_text (String.ofList (iri.toList.drop start.length))).ret
      (f := fun rest => start ++ rest)
    rwa [happend, Utf8.bytes, String.toList_ofList] at htext
  · exact ⟨.whole, rfl, readsAll_text iri⟩

theorem readsIri_inNamespace {hash : UInt16} {localName : String}
    (h : v.matchNamespace? iri = some (hash, localName)) :
    ReadsIri v ⟨.iri .inNamespace, hashBytes hash ++ Utf8.bytes localName⟩ iri := by
  obtain ⟨ns, hns, happend⟩ := append_of_matchNamespace? h
  refine ⟨.inNamespace, rfl, ?_⟩
  refine ReadsAll.bind (reads_hash hash) ?_
  refine ReadsAll.found hns ?_
  have htext := (readsAll_text localName).ret (f := fun rest => ns ++ rest)
  rwa [happend] at htext

/-- The bytes of a local name are read with either form of identifiers. -/
theorem readsAll_readIdentifierIri {m : IdMatch} (h : v.matchId? iri = some m) :
    ReadsAll (v.readIdentifierIri m.slash) (hashBytes m.hash ++ m.bytes) iri := by
  obtain ⟨n, hn, hadmits, hiri⟩ := iri_of_matchId? h
  refine ReadsAll.bind (reads_hash m.hash) ?_
  refine ReadsAll.found hn ?_
  intro offset hlimit
  rw [Reader.bind_ok (readsAll_rest m.bytes offset hlimit), if_pos hadmits, hiri]
  rfl

theorem readsIri_identifier {m : IdMatch} (h : v.matchId? iri = some m) :
    ReadsIri v
      ⟨.iri (if m.slash then .identifierSlash else .identifier), hashBytes m.hash ++ m.bytes⟩
      iri := by
  have hread := readsAll_readIdentifierIri h
  refine ⟨_, rfl, ?_⟩
  cases hslash : m.slash with
  | true => rwa [hslash] at hread
  | false => rwa [hslash] at hread

theorem readsIri_wellKnown {hash : UInt16} (h : v.iris.hashOf? iri = some hash) :
    ReadsIri v ⟨.iri .wellKnown, hashBytes hash⟩ iri :=
  ⟨.wellKnown, rfl,
    ((reads_hash hash).last (Reader.reads_found (HashTable.ofHash?_of_hashOf? h))).all⟩

/-- The encoded form of an IRI is read back as the IRI. -/
theorem readsIri_encodeIri (v : Vocabulary) (iri : String) : ReadsIri v (v.encodeIri iri) iri := by
  rw [encodeIri]
  split
  · next hash hhash => exact readsIri_wellKnown hhash
  split
  · next m hm => exact readsIri_identifier hm
  split
  · next hash localName hns => exact readsIri_inNamespace hns
  · exact readsIri_plain

end RdfIndex.Vocabulary
