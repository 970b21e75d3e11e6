import RdfIndex.Bytes.Cursor
import RdfIndex.Encoding.Iri
import RdfIndex.Proofs.Bytes.Numbers
import RdfIndex.Proofs.Text.Utf8

/-!
# What a reader reads

`Reader.Reads r bytes a` says that `r` takes exactly `bytes` from any place where they stand and
gives `a`.  `Reader.ReadsAll r bytes a` says the same of `bytes` that end their region, which is all
that can be said of readers that take what is left.  Both hold as long as no position reaches the
limit.

Readers in turn read what stands in turn (`Reads.bind`, `ReadsAll.bind`), so that the round trip of
a form is a chain with one link for each of its fields.
-/

namespace RdfIndex.Reader

variable {α β : Type}

/-- A reader takes exactly these bytes, wherever they stand and whatever follows them. -/
def Reads (r : Reader α) (bytes : Bytes) (a : α) : Prop :=
  ∀ (offset : Nat) (rest : Bytes), offset + bytes.length < positionLimit →
    r ⟨offset, bytes ++ rest⟩ = (.ok a, ⟨offset + bytes.length, rest⟩)

/-- A reader takes all of these bytes when nothing follows them. -/
def ReadsAll (r : Reader α) (bytes : Bytes) (a : α) : Prop :=
  ∀ offset : Nat, offset + bytes.length < positionLimit →
    r ⟨offset, bytes⟩ = (.ok a, ⟨offset + bytes.length, []⟩)

theorem bind_ok {r : Reader α} {f : α → Reader β} {c c' : Cursor} {a : α} (h : r c = (.ok a, c')) :
    (r >>= f) c = f a c' := by
  show Reader.bind r f c = f a c'
  rw [Reader.bind, h]

/-! ## In turn -/

theorem Reads.bind {r : Reader α} {f : α → Reader β} {head tail : Bytes} {a : α} {b : β}
    (hr : Reads r head a) (hf : Reads (f a) tail b) : Reads (r >>= f) (head ++ tail) b := by
  intro offset rest hlimit
  rw [List.length_append] at hlimit ⊢
  rw [List.append_assoc, bind_ok (hr offset (tail ++ rest) (by omega)),
    hf (offset + head.length) rest (by omega), Nat.add_assoc]

theorem ReadsAll.bind {r : Reader α} {f : α → Reader β} {head tail : Bytes} {a : α} {b : β}
    (hr : Reads r head a) (hf : ReadsAll (f a) tail b) : ReadsAll (r >>= f) (head ++ tail) b := by
  intro offset hlimit
  rw [List.length_append] at hlimit ⊢
  rw [bind_ok (hr offset tail (by omega)), hf (offset + head.length) (by omega), Nat.add_assoc]

/-- What reads the same bytes anywhere reads them at the end of their region. -/
theorem Reads.all {r : Reader α} {bytes : Bytes} {a : α} (h : Reads r bytes a) :
    ReadsAll r bytes a := by
  intro offset hlimit
  have := h offset [] hlimit
  rwa [List.append_nil] at this

theorem reads_pure (a : α) : Reads (Pure.pure a : Reader α) [] a := by
  intro offset rest _
  rfl

/-- What follows the last field reads nothing. -/
theorem Reads.last {r : Reader α} {f : α → Reader β} {bytes : Bytes} {a : α} {b : β}
    (hr : Reads r bytes a) (hf : Reads (f a) [] b) : Reads (r >>= f) bytes b := by
  have hread := hr.bind hf
  rwa [List.append_nil] at hread

/-- A result after the last field. -/
theorem Reads.ret {r : Reader α} {f : α → β} {bytes : Bytes} {a : α} (h : Reads r bytes a) :
    Reads (r >>= fun x => Pure.pure (f x)) bytes (f a) :=
  Reads.last (f := fun x => Pure.pure (f x)) h (reads_pure (f a))

/-- A result after the last field of a region. -/
theorem ReadsAll.ret {r : Reader α} {f : α → β} {bytes : Bytes} {a : α} (h : ReadsAll r bytes a) :
    ReadsAll (r >>= fun x => Pure.pure (f x)) bytes (f a) := by
  intro offset hlimit
  rw [bind_ok (h offset hlimit)]
  rfl

theorem ReadsAll.map {r : Reader α} {bytes : Bytes} {a : α} (f : α → β) (h : ReadsAll r bytes a) :
    ReadsAll (f <$> r) bytes (f a) := h.ret

/-! ## Checks -/

/-- A check that passes, after the bytes that it is about. -/
theorem reads_check {result : Except DecodeError α} {a : α} (h : result = .ok a) :
    Reads (check result) [] a := by
  intro offset rest _
  rw [check, h]
  rfl

theorem reads_found {entry : Option α} {missing : DecodeError} {a : α} (h : entry = some a) :
    Reads (found entry missing) [] a := by
  subst h
  exact reads_pure a

/-- A check that passes lets the reader go on. -/
theorem ReadsAll.check {result : Except DecodeError α} {f : α → Reader β} {bytes : Bytes} {a : α}
    {b : β} (h : result = .ok a) (hf : ReadsAll (f a) bytes b) :
    ReadsAll (Reader.check result >>= f) bytes b :=
  ReadsAll.bind (reads_check h) hf

/-- An entry that is there lets the reader go on. -/
theorem ReadsAll.found {entry : Option α} {missing : DecodeError} {f : α → Reader β} {bytes : Bytes}
    {a : α} {b : β} (h : entry = some a) (hf : ReadsAll (f a) bytes b) :
    ReadsAll (Reader.found entry missing >>= f) bytes b :=
  ReadsAll.bind (reads_found h) hf

/-! ## Bytes and numbers -/

theorem reads_take {count : Nat} {bytes : Bytes} (h : bytes.length = count) :
    Reads (take count) bytes bytes := by
  subst h
  intro offset rest hlimit
  have hlen : ¬ (bytes ++ rest).length < bytes.length := by
    rw [List.length_append]
    omega
  rw [take]
  simp only
  rw [if_neg (by omega), if_neg hlen, List.take_left, List.drop_left]

theorem readsAll_rest (bytes : Bytes) : ReadsAll rest bytes bytes := by
  intro offset _
  rfl

theorem reads_word (width : Nat) {n : Nat} (h : n < Nat.pow 256 width) :
    Reads (word width) (Bytes.toBigEndian width n) n := by
  have hread := (reads_take (Bytes.length_toBigEndian width n)).ret (f := Bytes.ofBigEndian)
  rwa [Bytes.ofBigEndian_toBigEndian_of_lt h] at hread

theorem reads_int {width : Nat} {i : Int} (h : Integer.fits width i = true) :
    Reads (int width) (Bytes.ofInt width i) i := by
  have hread := (reads_take (Bytes.length_ofInt width i)).ret (f := Bytes.toInt)
  rwa [Bytes.toInt_ofInt h] at hread

theorem reads_varint {n : Nat} (h : n < 2 ^ 64) : Reads varint (Varint.encode n) n := by
  intro offset rest _
  rw [varint]
  simp only [Varint.decode_encode h rest, List.length_append, Nat.add_sub_cancel]

theorem reads_varintInt {i : Int} (h : Integer.fits 8 i = true) :
    Reads varintInt (Varint.encodeInt i) i := by
  have hread := (reads_varint (Varint.fold_lt h)).ret (f := Varint.unfold)
  rwa [Varint.unfold_fold] at hread

/-- Bytes come back with their length in front.  The length is a position, so it is below the limit
of numbers. -/
theorem reads_withLength (bytes : Bytes) : Reads withLength (Varint.withLength bytes) bytes := by
  intro offset rest hlimit
  have hlen : bytes.length < 2 ^ 64 := by
    rw [Varint.withLength, List.length_append, positionLimit] at hlimit
    omega
  exact ((reads_varint hlen).bind (reads_take rfl)) offset rest hlimit

theorem reads_hash (hash : UInt16) : Reads Reader.hash (hashBytes hash) hash := by
  have hread := (reads_word 2 hash.toNat_lt).ret (f := UInt16.ofNat)
  rwa [UInt16.ofNat_toNat] at hread

/-! ## Texts -/

theorem textOf_bytes (s : String) : textOf (Utf8.bytes s) = .ok s := by
  rw [textOf, Utf8.text_bytes]
  rfl

theorem readsAll_text (s : String) : ReadsAll text (Utf8.bytes s) s := by
  intro offset hlimit
  rw [text, bind_ok (readsAll_rest _ offset hlimit), textOf_bytes]
  rfl

end RdfIndex.Reader
