import RdfIndex.Proofs.Text.Utf8

/-!
# Where the bytes of a text can be cut

The bytes of a text can be cut at a place (`IsPlace`): where the bytes of some characters end and
those of the next ones start.  A character starts with a byte that is no continuation byte, and only
continuation bytes follow it, so the places are told by the byte at which the text is cut
(`isPlace_iff_getElem?`).  A character of ASCII is its own byte and no part of another character
(`of_encode_eq_cons`).
-/

namespace RdfIndex.Utf8

/-- The first `n` bytes of a text are those of some of its characters. -/
def IsPlace (cs : List Char) (n : Nat) : Prop :=
  ∃ front back, cs = front ++ back ∧ (encode front).length = n

/-! ## The bytes of characters -/

@[simp] theorem encode_nil : encode [] = [] := rfl

@[simp] theorem encode_cons (c : Char) (cs : List Char) :
    encode (c :: cs) = encodeChar c ++ encode cs := List.flatMap_cons

@[simp] theorem encode_append (cs ds : List Char) : encode (cs ++ ds) = encode cs ++ encode ds :=
  List.flatMap_append

theorem encodeChar_of_lt {c : Char} (h : c.toNat < 0x80) :
    encodeChar c = [UInt8.ofNat c.toNat] := if_pos h

theorem length_encode_of_ascii {cs : List Char} (h : ∀ c ∈ cs, c.toNat < 0x80) :
    (encode cs).length = cs.length := by
  induction cs with
  | nil => rfl
  | cons c cs ih =>
    rw [encode_cons, encodeChar_of_lt (h c List.mem_cons_self), List.singleton_append,
      List.length_cons, List.length_cons, ih fun d hd => h d (List.mem_cons_of_mem c hd)]

theorem isTail_eq_false_iff {b : UInt8} :
    isTail b = false ↔ b.toNat < 0x80 ∨ 0xC0 ≤ b.toNat := by
  rw [← Bool.not_eq_true]
  simp only [isTail, Bool.and_eq_true, decide_eq_true_eq, UInt8.le_iff_toNat_le, UInt8.reduceToNat]
  omega

/-- A byte of ASCII is no continuation byte. -/
theorem isTail_ascii {c : Char} (hc : c.toNat < 0x80) : isTail (UInt8.ofNat c.toNat) = false :=
  isTail_eq_false_iff.2 (.inl (by rwa [toNat_byte (by omega)]))

/-- A character of ASCII is its own byte.  Any other one is a byte from `C0` on and continuation
bytes. -/
theorem encodeChar_shape (c : Char) :
    (c.toNat < 0x80 ∧ encodeChar c = [UInt8.ofNat c.toNat])
      ∨ ∃ b t tail, encodeChar c = b :: (tail ++ [t]) ∧ 0xC0 ≤ b.toNat
        ∧ (∀ u ∈ tail, isTail u = true) ∧ isTail t = true := by
  have hlt := toNat_lt c
  have htail : ∀ {n : Nat}, isTail (UInt8.ofNat (0x80 + n % 0x40)) = true :=
    isTail_byte (Nat.mod_lt _ (by decide))
  unfold encodeChar
  simp only
  split
  · next h => exact .inl ⟨h, rfl⟩
  split
  · next h =>
    refine .inr ⟨_, _, [], rfl, ?_, nofun, htail⟩
    rw [toNat_byte (by omega)]
    omega
  split
  · next h =>
    refine .inr ⟨_, _, [_], rfl, ?_, List.forall_mem_singleton.2 htail, htail⟩
    rw [toNat_byte (by omega)]
    omega
  · next h =>
    refine .inr ⟨_, _, [_, _], rfl, ?_,
      List.forall_mem_cons.2 ⟨htail, List.forall_mem_singleton.2 htail⟩, htail⟩
    rw [toNat_byte (by omega)]
    omega

/-- A character starts with a byte that is no continuation byte, and only such bytes follow. -/
theorem encodeChar_eq_cons (c : Char) : ∃ b tail, encodeChar c = b :: tail ∧ isTail b = false
    ∧ ∀ t ∈ tail, isTail t = true := by
  rcases encodeChar_shape c with ⟨hlt, h⟩ | ⟨b, t, tail, h, hb, htail, ht⟩
  · exact ⟨_, [], h, isTail_ascii hlt, nofun⟩
  · refine ⟨b, tail ++ [t], h, isTail_eq_false_iff.2 (.inr hb), ?_⟩
    exact List.forall_mem_append.2 ⟨htail, List.forall_mem_singleton.2 ht⟩

theorem length_encodeChar_pos (c : Char) : 0 < (encodeChar c).length := by
  obtain ⟨b, tail, h, _⟩ := encodeChar_eq_cons c
  rw [h, List.length_cons]
  exact Nat.succ_pos _

theorem encode_eq_nil_iff {cs : List Char} : encode cs = [] ↔ cs = [] := by
  refine ⟨fun h => ?_, fun h => h ▸ rfl⟩
  cases cs with
  | nil => rfl
  | cons c cs =>
    rw [encode_cons, List.append_eq_nil_iff] at h
    exact absurd (List.length_pos_iff.1 (length_encodeChar_pos c)) (fun hne => hne h.1)

theorem encode_inj {cs ds : List Char} (h : encode cs = encode ds) : cs = ds :=
  Except.ok.inj ((decode_encode cs).symm.trans (h ▸ decode_encode ds))

/-- A text is split in one way into parts of given numbers of bytes. -/
theorem eq_of_append_eq {front back front' back' : List Char} (h : front ++ back = front' ++ back')
    (hlength : (encode back).length = (encode back').length) : front = front' ∧ back = back' := by
  have hbytes := congrArg encode h
  rw [encode_append, encode_append] at hbytes
  obtain ⟨hfront, hback⟩ := List.append_inj' hbytes hlength
  exact ⟨encode_inj hfront, encode_inj hback⟩

/-- A byte of ASCII at the start of a text is its first character. -/
theorem of_encode_eq_cons {cs : List Char} {b : UInt8} {rest : Bytes} (hb : b.toNat < 0x80)
    (h : encode cs = b :: rest) :
    ∃ cs', cs = Char.ofNat b.toNat :: cs' ∧ encode cs' = rest := by
  cases cs with
  | nil => cases h
  | cons c cs' =>
    rw [encode_cons] at h
    rcases encodeChar_shape c with ⟨hlt, hchar⟩ | ⟨first, t, tail, hchar, hfirst, _⟩
    · rw [hchar, List.singleton_append, List.cons.injEq] at h
      obtain ⟨rfl, hrest⟩ := h
      rw [toNat_byte (by omega), Char.ofNat_toNat]
      exact ⟨cs', rfl, hrest⟩
    · rw [hchar, List.cons_append, List.cons.injEq] at h
      rw [h.1] at hfirst
      omega

/-- A character of ASCII is in a text if and only if its byte is one of the bytes. -/
theorem mem_encode_iff {cs : List Char} {c : Char} (hc : c.toNat < 0x80) :
    UInt8.ofNat c.toNat ∈ encode cs ↔ c ∈ cs := by
  have hbyte : (UInt8.ofNat c.toNat).toNat = c.toNat := toNat_byte (by omega)
  rw [encode, List.mem_flatMap]
  constructor
  · rintro ⟨d, hd, hmem⟩
    rcases encodeChar_shape d with ⟨hlt, hchar⟩ | ⟨b, t, tail, hchar, hb, htail, ht⟩
    · rw [hchar, List.mem_singleton, ← UInt8.toNat_inj, hbyte, toNat_byte (by omega),
        Char.toNat_inj] at hmem
      exact hmem ▸ hd
    · have hnot := isTail_ascii hc
      rw [hchar, List.mem_cons, List.mem_append, List.mem_singleton] at hmem
      rcases hmem with rfl | hmem | rfl
      · omega
      · rw [htail _ hmem] at hnot
        cases hnot
      · rw [ht] at hnot
        cases hnot
  · intro h
    refine ⟨c, h, ?_⟩
    rw [encodeChar_of_lt hc]
    exact List.mem_singleton_self _

/-- A text ends with a character of ASCII if and only if its last byte is that character. -/
theorem getLast?_encode_eq_some_iff {cs : List Char} {c : Char} (hc : c.toNat < 0x80) :
    (encode cs).getLast? = some (UInt8.ofNat c.toNat) ↔ cs.getLast? = some c := by
  rcases List.eq_nil_or_concat cs with rfl | ⟨front, d, rfl⟩
  · exact ⟨nofun, nofun⟩
  rw [List.concat_eq_append, List.getLast?_concat, encode_append, encode_cons, encode_nil,
    List.append_nil, Option.some.injEq]
  rcases encodeChar_shape d with ⟨hlt, hchar⟩ | ⟨first, t, tail, hchar, _, _, ht⟩
  · rw [hchar, List.getLast?_concat, Option.some.injEq, ← UInt8.toNat_inj, toNat_byte (by omega),
      toNat_byte (by omega), Char.toNat_inj]
  · rw [hchar, ← List.cons_append, ← List.append_assoc, List.getLast?_concat, Option.some.injEq]
    constructor
    · rintro rfl
      rw [isTail_ascii hc] at ht
      cases ht
    · rintro rfl
      rw [encodeChar_of_lt hc] at hchar
      exact absurd (congrArg List.length hchar) (by simp)

/-! ## Places -/

theorem isPlace_zero (cs : List Char) : IsPlace cs 0 := ⟨[], cs, rfl, rfl⟩

/-- A text of ASCII can be cut anywhere. -/
theorem isPlace_of_ascii {cs : List Char} (h : ∀ c ∈ cs, c.toNat < 0x80) {n : Nat}
    (hn : n ≤ cs.length) : IsPlace cs n := by
  refine ⟨cs.take n, cs.drop n, (List.take_append_drop n cs).symm, ?_⟩
  rw [length_encode_of_ascii fun c hc => h c (List.mem_of_mem_take hc), List.length_take_of_le hn]

/-- A place that is not the start of a text comes after its first character. -/
theorem isPlace_cons_iff {c : Char} {cs : List Char} {n : Nat} : IsPlace (c :: cs) n
    ↔ n = 0 ∨ ∃ m, IsPlace cs m ∧ n = (encodeChar c).length + m := by
  constructor
  · rintro ⟨front, back, heq, rfl⟩
    cases front with
    | nil => exact .inl rfl
    | cons d front =>
      obtain ⟨rfl, rfl⟩ := List.cons.inj heq
      refine .inr ⟨_, ⟨front, back, rfl, rfl⟩, ?_⟩
      rw [encode_cons, List.length_append]
  · rintro (rfl | ⟨m, ⟨front, back, rfl, rfl⟩, rfl⟩)
    · exact isPlace_zero _
    · refine ⟨c :: front, back, rfl, ?_⟩
      rw [encode_cons, List.length_append]

/-- A text can be cut at a byte if that byte is no continuation byte. -/
theorem isPlace_iff_getElem? {cs : List Char} {n : Nat} (h : n ≤ (encode cs).length) :
    IsPlace cs n ↔ ∀ b, (encode cs)[n]? = some b → isTail b = false := by
  induction cs generalizing n with
  | nil =>
    obtain rfl := Nat.le_zero.1 h
    exact ⟨fun _ b hb => (by cases hb), fun _ => isPlace_zero []⟩
  | cons c cs ih =>
    obtain ⟨first, tail, hshape, hfirst, htail⟩ := encodeChar_eq_cons c
    rw [isPlace_cons_iff, encode_cons]
    rcases Nat.lt_or_ge n (encodeChar c).length with hlt | hge
    · rw [List.getElem?_append_left hlt, hshape]
      rw [hshape] at hlt
      cases n with
      | zero => exact ⟨fun _ b hb => Option.some.inj hb ▸ hfirst, fun _ => .inl rfl⟩
      | succ n =>
        rw [List.getElem?_cons_succ]
        have hn : n < tail.length := Nat.lt_of_succ_lt_succ hlt
        constructor
        · rintro (h0 | ⟨m, _, hm⟩)
          · cases h0
          · rw [List.length_cons] at hm
            omega
        · intro hall
          have := hall _ (List.getElem?_eq_getElem hn)
          rw [htail _ (List.getElem_mem hn)] at this
          cases this
    · obtain ⟨m, rfl⟩ := Nat.exists_eq_add_of_le hge
      have hm : m ≤ (encode cs).length := by
        rw [encode_cons, List.length_append] at h
        omega
      rw [List.getElem?_append_right hge, Nat.add_sub_cancel_left, ← ih hm]
      constructor
      · rintro (h0 | ⟨m', hplace, heq⟩)
        · have := length_encodeChar_pos c
          omega
        · obtain rfl := Nat.add_left_cancel heq
          exact hplace
      · exact fun hplace => .inr ⟨m, hplace, rfl⟩

/-- A text can be cut at a byte of ASCII, and the character after the cut is that byte. -/
theorem of_encode_eq_append {cs : List Char} {before after : Bytes} {c : Char} (hc : c.toNat < 0x80)
    (h : encode cs = before ++ UInt8.ofNat c.toNat :: after) :
    ∃ front back, cs = front ++ c :: back ∧ encode front = before ∧ encode back = after := by
  have hbyte : (UInt8.ofNat c.toNat).toNat = c.toNat := toNat_byte (by omega)
  have hplace : IsPlace cs before.length := by
    rw [isPlace_iff_getElem? (by rw [h, List.length_append]; exact Nat.le_add_right _ _), h]
    intro b hb
    rw [List.getElem?_append_right (Nat.le_refl _), Nat.sub_self, List.getElem?_cons_zero,
      Option.some.injEq] at hb
    exact hb ▸ isTail_ascii hc
  obtain ⟨front, back, rfl, hlength⟩ := hplace
  rw [encode_append] at h
  obtain ⟨hfront, hback⟩ := List.append_inj h hlength
  obtain ⟨back, rfl, hafter⟩ := of_encode_eq_cons (by rwa [hbyte]) hback
  rw [hbyte, Char.ofNat_toNat]
  exact ⟨front, back, rfl, hfront, hafter⟩

end RdfIndex.Utf8
