import RdfIndex.Vocabulary.Basic

/-!
# References lead back

What a vocabulary finds for an IRI gives that IRI back.  A hash leads to the entry it is the hash of
(`HashTable.ofHash?_of_hashOf?`), and the pieces into which an IRI is cut are the IRI:
`Vocabulary.iri_of_matchId?`, `Vocabulary.append_of_matchNamespace?` and
`IriStart.append_of_longest?`.  None of this depends on which entries the vocabulary has.
-/

namespace RdfIndex

/-! ## Tables -/

namespace HashTable

variable {α : Type} {text : α → String} {t : HashTable α text}

theorem ofHash?_of_mem {hash : UInt16} {a : α} (h : (hash, a) ∈ t.entries) :
    t.ofHash? hash = some a := by
  have hfound : ∀ {es : List (UInt16 × α)}, (es.map Prod.fst).Nodup → (hash, a) ∈ es →
      es.find? (·.1 == hash) = some (hash, a) := by
    intro es
    induction es with
    | nil => intro _ hmem; cases hmem
    | cons e es ih =>
      intro hnodup hmem
      rw [List.map_cons, List.nodup_cons] at hnodup
      rcases List.mem_cons.1 hmem with rfl | hmem
      · exact List.find?_cons_of_pos (by simp)
      · -- The entry in front has another hash.
        have hne : e.1 ≠ hash := fun heq =>
          hnodup.1 (heq ▸ List.mem_map.2 ⟨(hash, a), hmem, rfl⟩)
        rw [List.find?_cons_of_neg (by simpa using hne)]
        exact ih hnodup.2 hmem
  rw [ofHash?, hfound t.distinct h]
  rfl

theorem mem_of_hashOf? [DecidableEq α] {hash : UInt16} {a : α} (h : t.hashOf? a = some hash) :
    (hash, a) ∈ t.entries := by
  obtain ⟨⟨h', a'⟩, hfind, rfl⟩ := Option.map_eq_some_iff.1 h
  have ha : a' = a := by simpa using List.find?_some hfind
  exact ha ▸ List.mem_of_find?_eq_some hfind

/-- The hash of an entry leads to the entry. -/
theorem ofHash?_of_hashOf? [DecidableEq α] {hash : UInt16} {a : α} (h : t.hashOf? a = some hash) :
    t.ofHash? hash = some a :=
  ofHash?_of_mem (mem_of_hashOf? h)

end HashTable

/-! ## Starts of IRIs -/

namespace IriStart

/-- What follows a start makes a text with it. -/
theorem append_drop_of_isPrefixOf {start text : List Char} (h : start.isPrefixOf text = true) :
    start ++ text.drop start.length = text := by
  obtain ⟨rest, rfl⟩ := List.isPrefixOf_iff_prefix.1 h
  rw [List.drop_left]

theorem append_of_strip? {start text rest : List Char} (h : strip? start text = some rest) :
    start ++ rest = text := by
  rw [strip?, Option.ite_none_right_eq_some] at h
  rw [← Option.some.inj h.2, append_drop_of_isPrefixOf h.1]

/-- The start that is found is in the list at its code, and the text has it. -/
theorem of_longestFrom? {iri : List Char} {found : Nat} {start : String} :
    ∀ {starts : List String} {code : Nat}, longestFrom? iri code starts = some (found, start) →
      code ≤ found ∧ starts[found - code]? = some start ∧ start.toList.isPrefixOf iri = true
  | [], _, h => by cases h
  | first :: starts, code, h => by
    have hlater : longestFrom? iri (code + 1) starts = some (found, start) →
        code ≤ found ∧ (first :: starts)[found - code]? = some start
          ∧ start.toList.isPrefixOf iri = true := by
      intro hfound
      obtain ⟨hle, hget, hprefix⟩ := of_longestFrom? hfound
      have hindex : found - code = found - (code + 1) + 1 := by omega
      exact ⟨by omega, by rw [hindex, List.getElem?_cons_succ]; exact hget, hprefix⟩
    have hhere : first.toList.isPrefixOf iri = true → some (code, first) = some (found, start) →
        code ≤ found ∧ (first :: starts)[found - code]? = some start
          ∧ start.toList.isPrefixOf iri = true := by
      intro hprefix heq
      obtain ⟨rfl, rfl⟩ := Prod.mk.inj (Option.some.inj heq)
      exact ⟨Nat.le_refl _, by rw [Nat.sub_self]; rfl, hprefix⟩
    rw [longestFrom?] at h
    split at h
    · next hprefix =>
      split at h
      · exact hhere hprefix h
      · next hother =>
        split at h
        · exact hlater (hother.trans h)
        · exact hhere hprefix h
    · exact hlater h

/-- The longest start of an IRI has its code, which is one byte, and makes the IRI with what follows
it. -/
theorem append_of_longest? {iri : String} {code : Nat} {start : String}
    (h : longest? iri = some (code, start)) :
    code < 256 ∧ ofCode? code = some start
      ∧ start ++ String.ofList (iri.toList.drop start.length) = iri := by
  obtain ⟨_, hget, hprefix⟩ := of_longestFrom? h
  rw [Nat.sub_zero] at hget
  refine ⟨?_, hget, ?_⟩
  · have hlt := (List.getElem?_eq_some_iff.1 hget).1
    exact Nat.lt_trans hlt (by decide)
  · apply String.ext_iff.2
    rw [String.toList_append, String.toList_ofList, ← String.length_toList]
    exact append_drop_of_isPrefixOf hprefix

end IriStart

/-! ## Namespaces -/

theorem append_of_cutAfterLast? {c : Char} {text ns localName : List Char}
    (h : cutAfterLast? c text = some (ns, localName)) : ns ++ localName = text := by
  rw [cutAfterLast?, Option.ite_none_right_eq_some] at h
  obtain ⟨rfl, rfl⟩ := Prod.mk.inj (Option.some.inj h.2)
  rw [← List.reverse_append, List.takeWhile_append_dropWhile, List.reverse_reverse]

theorem append_of_splitNamespace? {iri ns localName : String}
    (h : splitNamespace? iri = some (ns, localName)) : ns ++ localName = iri := by
  obtain ⟨⟨before, after⟩, hcut, heq⟩ := Option.map_eq_some_iff.1 h
  obtain ⟨rfl, rfl⟩ := Prod.mk.inj heq
  have happend : before ++ after = iri.toList := by
    rcases Option.or_eq_some_iff.1 hcut with hcut | ⟨_, hcut⟩
    · exact append_of_cutAfterLast? hcut
    rcases Option.or_eq_some_iff.1 hcut with hcut | ⟨_, hcut⟩
    · exact append_of_cutAfterLast? hcut
    · exact append_of_cutAfterLast? hcut
  rw [← String.ofList_append, happend, String.ofList_toList]

namespace Vocabulary

variable {v : Vocabulary}

/-- A namespace of the vocabulary and the local name make the IRI. -/
theorem append_of_matchNamespace? {iri localName : String} {hash : UInt16}
    (h : v.matchNamespace? iri = some (hash, localName)) :
    ∃ ns, v.namespaces.ofHash? hash = some ns ∧ ns ++ localName = iri := by
  obtain ⟨⟨ns, rest⟩, hsplit, h⟩ := Option.bind_eq_some_iff.1 h
  obtain ⟨hash', hhash, h⟩ := Option.bind_eq_some_iff.1 h
  obtain ⟨rfl, rfl⟩ := Prod.mk.inj (Option.some.inj h)
  exact ⟨ns, HashTable.ofHash?_of_hashOf? hhash, append_of_splitNamespace? hsplit⟩

/-! ## Namespaces of identifiers -/

theorem append_of_dropSlash {localName body : List Char} {slash : Bool}
    (h : dropSlash localName = (body, slash)) :
    body ++ (if slash then ['/'] else []) = localName := by
  rw [dropSlash] at h
  split at h
  · next hlast =>
    obtain ⟨rfl, rfl⟩ := Prod.mk.inj h
    obtain ⟨front, rfl⟩ := List.getLast?_eq_some_iff.1 hlast
    rw [if_pos rfl, List.dropLast_concat]
  · obtain ⟨rfl, rfl⟩ := Prod.mk.inj h
    rw [if_neg Bool.false_ne_true, List.append_nil]

/-- The bytes of a local name are admitted, and written as the local name. -/
theorem encode_of_decodeLocal? {n : IdNamespace} {localName : String} {bytes : Bytes}
    (h : n.decodeLocal? localName = some bytes) :
    n.admits bytes = true ∧ n.encoding.encode bytes = localName := by
  rw [IdNamespace.decodeLocal?] at h
  split at h
  · cases h
  · next hne =>
    obtain ⟨hdecode, hsize⟩ := Option.filter_eq_some_iff.1 h
    have hencode : n.encoding.encode bytes = localName :=
      beq_iff_eq.1 (Option.filter_eq_some_iff.1 hdecode).2
    have hbytes : bytes ≠ [] := by
      rintro rfl
      refine hne (hencode.symm.trans ?_)
      cases n.encoding <;> rfl
    refine ⟨?_, hencode⟩
    rw [IdNamespace.admits, hsize, Bool.and_true]
    simpa using hbytes

theorem iri_of_matchIn? {iri : List Char} {n : IdNamespace} {bytes : Bytes} {slash : Bool}
    (h : matchIn? iri n = some (bytes, slash)) :
    n.admits bytes = true ∧ n.iri bytes slash = String.ofList iri := by
  rw [matchIn?] at h
  split at h
  · cases h
  · next localName hstrip =>
    cases hdrop : dropSlash localName with
    | mk body ended =>
      rw [hdrop] at h
      obtain ⟨found, hdecode, heq⟩ := Option.map_eq_some_iff.1 h
      obtain ⟨rfl, rfl⟩ := Prod.mk.inj heq
      obtain ⟨hadmits, hencode⟩ := encode_of_decodeLocal? hdecode
      refine ⟨hadmits, ?_⟩
      rw [IdNamespace.iri, hencode, ← IriStart.append_of_strip? hstrip, ← append_of_dropSlash hdrop]
      apply String.ext_iff.2
      cases ended <;> simp [List.append_assoc]

/-- What identifies a value in an IRI leads to the namespace and makes the IRI with it. -/
theorem iri_of_matchId? {iri : String} {m : IdMatch} (h : v.matchId? iri = some m) :
    ∃ n, v.idNamespaces.ofHash? m.hash = some n ∧ n.admits m.bytes = true
      ∧ n.iri m.bytes m.slash = iri := by
  obtain ⟨⟨hash, n⟩, hmem, hmatch⟩ := List.exists_of_findSome?_eq_some h
  obtain ⟨⟨bytes, slash⟩, hin, rfl⟩ := Option.map_eq_some_iff.1 hmatch
  obtain ⟨hadmits, hiri⟩ := iri_of_matchIn? hin
  refine ⟨n, HashTable.ofHash?_of_mem hmem, hadmits, ?_⟩
  rw [hiri, String.ofList_toList]

end Vocabulary

end RdfIndex
