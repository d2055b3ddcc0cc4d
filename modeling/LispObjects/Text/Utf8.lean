namespace LispObjects.Text.Utf8

/-!
# UTF-8

The bytes of a text, and the reading of arbitrary bytes as text in which every maximal ill-formed
subpart becomes one replacement character.

Decoding is a one-pass machine: between characters it is `ready`, inside one it knows how many
continuation bytes are missing, which range the next of them has to lie in, and the bits collected
so far. The ranges for the byte after `E0`, `ED`, `F0` and `F4` exclude overlong forms, surrogates
and code points past the last one.
-/

/-- The bytes of one character. -/
def encodeChar (c : Char) : List UInt8 :=
  String.utf8EncodeChar c

/-- The bytes of a text. -/
def encode (cs : List Char) : List UInt8 :=
  cs.flatMap encodeChar

@[simp] theorem encode_nil : encode [] = [] := rfl

@[simp] theorem encode_cons (c : Char) (cs : List Char) :
    encode (c :: cs) = encodeChar c ++ encode cs := rfl

/-- Texts are encoded one after the other. -/
@[simp] theorem encode_append (cs ds : List Char) : encode (cs ++ ds) = encode cs ++ encode ds := by
  simp [encode]

/-- How many bytes the character takes. -/
def width (c : Char) : Nat :=
  c.utf8Size

/-- A character takes as many bytes as its width says. -/
@[simp] theorem length_encodeChar (c : Char) : (encodeChar c).length = width c := by
  simp [encodeChar, width]

/-- A character takes at least one byte. -/
theorem width_pos (c : Char) : 0 < width c :=
  c.utf8Size_pos

/-- The replacement character, which stands for bytes that are no text. -/
def replacement : Char := '\uFFFD'

/-- Where the decoder stands between two bytes. -/
inductive State where
  /-- At the start of a character. -/
  | ready
  /-- Inside a character: `missing + 1` continuation bytes are still to come, the next of them in
  `low … high`, and `bits` holds the code point's leading bits. -/
  | inside (missing : Nat) (low high : UInt8) (bits : Nat)
  deriving Repr, DecidableEq

/-- Reads the first byte of a character: the characters that are certain now, and the new state. -/
def start (b : UInt8) : List Char × State :=
  if b < 0x80 then ([Char.ofNat b.toNat], .ready)
  else if b < 0xC2 then ([replacement], .ready)
  else if b < 0xE0 then ([], .inside 0 0x80 0xBF (b.toNat - 0xC0))
  else if b < 0xF0 then
    let low := if b = 0xE0 then 0xA0 else 0x80
    let high := if b = 0xED then 0x9F else 0xBF
    ([], .inside 1 low high (b.toNat - 0xE0))
  else if b < 0xF5 then
    let low := if b = 0xF0 then 0x90 else 0x80
    let high := if b = 0xF4 then 0x8F else 0xBF
    ([], .inside 2 low high (b.toNat - 0xF0))
  else ([replacement], .ready)

/-- Reads one byte. A byte that cannot continue the character begun before it ends that character's
ill-formed subpart and starts afresh. -/
def step (s : State) (b : UInt8) : List Char × State :=
  match s with
  | .ready => start b
  | .inside missing low high bits =>
    if low ≤ b ∧ b ≤ high then
      let bits := bits * 64 + (b.toNat - 0x80)
      match missing with
      | 0 => ([Char.ofNat bits], .ready)
      | m + 1 => ([], .inside m 0x80 0xBF bits)
    else
      let (cs, s) := start b
      (replacement :: cs, s)

/-- The characters that the bytes spell from state `s`; a character cut off by the end of the bytes
is one ill-formed subpart. -/
def decodeFrom (s : State) : List UInt8 → List Char
  | [] =>
    match s with
    | .ready => []
    | .inside .. => [replacement]
  | b :: bs =>
    let (cs, s) := step s b
    cs ++ decodeFrom s bs

/-- Bytes read as text, with one replacement character for every maximal ill-formed subpart. -/
def decode (bs : List UInt8) : List Char :=
  decodeFrom .ready bs

end LispObjects.Text.Utf8
