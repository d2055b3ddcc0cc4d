import LispObjects.Text.Utf8

namespace LispObjects.Text.Utf8

/-!
# Decoding what was encoded

The decoder gives back every character from its bytes, whatever comes after them, and so it gives back
every text.  No byte that an encoder writes is outside the range that the decoder expects at that place.

* `start_one` and its siblings — what the first byte of a character tells;
* `decodeFrom_inside_last`, `decodeFrom_inside_next` — a continuation byte adds six bits;
* `decodeFrom_encodeChar` — one character is read from its bytes;
* `decodeFrom_encode`, `decode_encode` — so is a text.
-/

variable {c : Char} {bs : List UInt8} {low high : UInt8} {n bits missing : Nat}

/-! ### First bytes -/

/-- A byte below `0x80` is a character by itself. -/
theorem start_one (h : n < 0x80) : start (.ofNat n) = ([Char.ofNat n], .ready) := by
  have hall : ∀ n : Fin 0x80, start (.ofNat n) = ([Char.ofNat n], .ready) := by decide
  exact hall ⟨n, h⟩

/-- `C0` and `C1` begin nothing, as the characters they would begin take one byte. -/
theorem start_two (hlow : 2 ≤ n) (h : n < 32) :
    start (.ofNat (n + 192)) = ([], .inside 0 0x80 0xBF n) := by
  have hall : ∀ n : Fin 32, 2 ≤ n.val →
      start (.ofNat (n + 192)) = ([], .inside 0 0x80 0xBF n) := by decide
  exact hall ⟨n, h⟩ hlow

/-- A first byte of three leaves two to come; the range of the next one keeps out surrogates and what two
    bytes can say. -/
theorem start_three (h : n < 16) :
    start (.ofNat (n + 224)) =
      ([], .inside 1 (if n = 0 then 0xA0 else 0x80) (if n = 13 then 0x9F else 0xBF) n) := by
  have hall : ∀ n : Fin 16, start (.ofNat (n + 224)) =
      ([], .inside 1 (if n.val = 0 then 0xA0 else 0x80) (if n.val = 13 then 0x9F else 0xBF) n) := by
    decide
  exact hall ⟨n, h⟩

/-- A first byte of four leaves three to come; the range of the next one keeps out what is beyond the
    last character and what three bytes can say. -/
theorem start_four (h : n < 5) :
    start (.ofNat (n + 240)) =
      ([], .inside 2 (if n = 0 then 0x90 else 0x80) (if n = 4 then 0x8F else 0xBF) n) := by
  have hall : ∀ n : Fin 5, start (.ofNat (n + 240)) =
      ([], .inside 2 (if n.val = 0 then 0x90 else 0x80) (if n.val = 4 then 0x8F else 0xBF) n) := by
    decide
  exact hall ⟨n, h⟩

/-- A byte that is a character gives it and leaves nothing to come. -/
theorem decodeFrom_ready_char {b : UInt8} (h : start b = ([c], .ready)) (bs : List UInt8) :
    decodeFrom .ready (b :: bs) = c :: decodeFrom .ready bs := by
  rw [decodeFrom, step, h]
  rfl

/-- A byte that begins a character leaves the rest of it to come. -/
theorem decodeFrom_ready_cons {b : UInt8} {s : State} (h : start b = ([], s)) (bs : List UInt8) :
    decodeFrom .ready (b :: bs) = decodeFrom s bs := by
  rw [decodeFrom, step, h]
  rfl

/-! ### Continuation bytes -/

/-- Six bits are in the full range of continuation bytes. -/
theorem six_bits_in_range (n : Nat) :
    (0x80 : UInt8).toNat ≤ n % 64 + 128 ∧ n % 64 + 128 ≤ (0xBF : UInt8).toNat := by
  show 128 ≤ _ ∧ _ ≤ 191
  omega

/-- A byte in the range carries six bits. -/
theorem step_inside (hn : n < 64) (hlow : low.toNat ≤ n + 128) (hhigh : n + 128 ≤ high.toNat) :
    step (.inside missing low high bits) (.ofNat (n + 128)) =
      match missing with
      | 0 => ([Char.ofNat (bits * 64 + n)], .ready)
      | m + 1 => ([], .inside m 0x80 0xBF (bits * 64 + n)) := by
  have hbyte : (UInt8.ofNat (n + 128)).toNat = n + 128 :=
    UInt8.toNat_ofNat_of_lt' (Nat.lt_of_lt_of_le (by omega : n + 128 < 192) (by decide))
  have hrange : low ≤ .ofNat (n + 128) ∧ .ofNat (n + 128) ≤ high := by
    rw [UInt8.le_iff_toNat_le, UInt8.le_iff_toNat_le, hbyte]
    exact ⟨hlow, hhigh⟩
  dsimp only [step]
  rw [if_pos hrange]
  cases missing <;> rw [hbyte, Nat.add_sub_cancel]

/-- The last byte of a character completes it. -/
theorem decodeFrom_inside_last (hn : n < 64) (hlow : low.toNat ≤ n + 128)
    (hhigh : n + 128 ≤ high.toNat) (bs : List UInt8) :
    decodeFrom (.inside 0 low high bits) (.ofNat (n + 128) :: bs) =
      Char.ofNat (bits * 64 + n) :: decodeFrom .ready bs := by
  rw [decodeFrom, step_inside hn hlow hhigh]
  rfl

/-- A byte before the last is followed by one of the full range. -/
theorem decodeFrom_inside_next (hn : n < 64) (hlow : low.toNat ≤ n + 128)
    (hhigh : n + 128 ≤ high.toNat) (bs : List UInt8) :
    decodeFrom (.inside (missing + 1) low high bits) (.ofNat (n + 128) :: bs) =
      decodeFrom (.inside missing 0x80 0xBF (bits * 64 + n)) bs := by
  rw [decodeFrom, step_inside hn hlow hhigh]
  rfl

/-! ### Characters and texts -/

/-- Two bytes of one character give it. -/
theorem decodeFrom_two (hlong : 0x80 ≤ n) (hn : n < 0x800) (bs : List UInt8) :
    decodeFrom .ready (.ofNat (n / 64 % 32 + 192) :: .ofNat (n % 64 + 128) :: bs) =
      Char.ofNat n :: decodeFrom .ready bs := by
  have hbits : n / 64 * 64 + n % 64 = n := by omega
  have hfull := six_bits_in_range n
  rw [Nat.mod_eq_of_lt (by omega : n / 64 < 32),
    decodeFrom_ready_cons (start_two (by omega) (by omega)),
    decodeFrom_inside_last (by omega) hfull.1 hfull.2, hbits]

/-- The second byte tells code points that fit into two bytes, and surrogates. -/
theorem decodeFrom_three (hlong : 0x800 ≤ n) (hn : n < 0x10000) (hscalar : n < 0xD800 ∨ 0xDFFF < n)
    (bs : List UInt8) :
    decodeFrom .ready (.ofNat (n / 4096 % 16 + 224) :: .ofNat (n / 64 % 64 + 128) ::
        .ofNat (n % 64 + 128) :: bs) =
      Char.ofNat n :: decodeFrom .ready bs := by
  have hbits : (n / 4096 * 64 + n / 64 % 64) * 64 + n % 64 = n := by omega
  -- the second byte is in the range that the first one leaves: shorter forms and surrogates are out
  have hlow : (if n / 4096 = 0 then 0xA0 else 0x80 : UInt8).toNat ≤ n / 64 % 64 + 128 := by
    split
    · show 160 ≤ _
      omega
    · exact (six_bits_in_range _).1
  have hhigh : n / 64 % 64 + 128 ≤ (if n / 4096 = 13 then 0x9F else 0xBF : UInt8).toNat := by
    split
    · show _ ≤ 159
      omega
    · exact (six_bits_in_range _).2
  have hfull := six_bits_in_range n
  rw [Nat.mod_eq_of_lt (by omega : n / 4096 < 16),
    decodeFrom_ready_cons (start_three (by omega)),
    decodeFrom_inside_next (by omega) hlow hhigh,
    decodeFrom_inside_last (by omega) hfull.1 hfull.2, hbits]

/-- The second byte tells code points that fit into three bytes, and those past the last one. -/
theorem decodeFrom_four (hlong : 0x10000 ≤ n) (hn : n < 0x110000) (bs : List UInt8) :
    decodeFrom .ready (.ofNat (n / 262144 % 8 + 240) :: .ofNat (n / 4096 % 64 + 128) ::
        .ofNat (n / 64 % 64 + 128) :: .ofNat (n % 64 + 128) :: bs) =
      Char.ofNat n :: decodeFrom .ready bs := by
  have hbits : ((n / 262144 * 64 + n / 4096 % 64) * 64 + n / 64 % 64) * 64 + n % 64 = n := by
    omega
  -- the second byte is in the range that the first one leaves, at both ends
  have hlow : (if n / 262144 = 0 then 0x90 else 0x80 : UInt8).toNat ≤ n / 4096 % 64 + 128 := by
    split
    · show 144 ≤ _
      omega
    · exact (six_bits_in_range _).1
  have hhigh : n / 4096 % 64 + 128 ≤ (if n / 262144 = 4 then 0x8F else 0xBF : UInt8).toNat := by
    split
    · show _ ≤ 143
      omega
    · exact (six_bits_in_range _).2
  have hfull := six_bits_in_range
  rw [Nat.mod_eq_of_lt (by omega : n / 262144 < 8),
    decodeFrom_ready_cons (start_four (by omega)),
    decodeFrom_inside_next (by omega) hlow hhigh,
    decodeFrom_inside_next (by omega) (hfull _).1 (hfull _).2,
    decodeFrom_inside_last (by omega) (hfull _).1 (hfull _).2, hbits]

/-- **One character** is read from its bytes, and what comes after them is read as before. -/
theorem decodeFrom_encodeChar (c : Char) (bs : List UInt8) :
    decodeFrom .ready (encodeChar c ++ bs) = c :: decodeFrom .ready bs := by
  -- code points are no surrogates and end with `10FFFF`
  have hvalid : c.toNat < 0xD800 ∨ 0xDFFF < c.toNat ∧ c.toNat < 0x110000 := c.valid
  have hc : Char.ofNat c.val.toNat = c := c.ofNat_toNat
  have hn : c.val.toNat = c.toNat := rfl
  unfold encodeChar String.utf8EncodeChar
  dsimp only
  -- by the number of bytes
  split
  · rw [List.singleton_append, decodeFrom_ready_char (start_one (by omega)), hc]
  · split
    · refine (decodeFrom_two (by omega) (by omega) bs).trans ?_
      rw [hc]
    · split
      · refine (decodeFrom_three (by omega) (by omega) (by omega) bs).trans ?_
        rw [hc]
      · refine (decodeFrom_four (by omega) (by omega) bs).trans ?_
        rw [hc]

/-- **Texts.** The bytes of a text are read as the text, and what comes after them as it is by
itself. -/
theorem decodeFrom_encode (cs : List Char) (bs : List UInt8) :
    decodeFrom .ready (encode cs ++ bs) = cs ++ decodeFrom .ready bs := by
  induction cs with
  | nil => rfl
  | cons c cs ih => rw [encode_cons, List.append_assoc, decodeFrom_encodeChar, ih, List.cons_append]

/-- Decoding undoes encoding. -/
theorem decode_encode (cs : List Char) : decode (encode cs) = cs := by
  have h := decodeFrom_encode cs []
  rwa [List.append_nil, decodeFrom, List.append_nil] at h

end LispObjects.Text.Utf8
