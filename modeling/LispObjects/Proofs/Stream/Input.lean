import LispObjects.Stream.Input
import Mathlib.Data.List.Induction

namespace LispObjects.InputStream

open Text.Utf8 (encode encodeChar width)

/-!
# Reading and stepping back

Calls on one input stream, in any order and with any outcome.  Beside the stream stands a log of what
was read, to which every call that gives something adds its bytes, and from which stepping back over
a character takes that character's bytes again.

* `Call`, `Call.perform?` — a call, and what it gives if it succeeds;
* `step`, `run` — the stream and the log after one call, and after a run of them;
* `charAt?_eq_some_iff` — a character is found at an offset if the characters before it take as many
  bytes;
* `IsBehind`, `isBehind_run` — the log is what is behind the position: no call loses or repeats a byte;
* `logLaws_run` — the log decides which calls succeed and what they give.
-/

variable {text : String} {s s' : InputStream} {log : List UInt8} {b : UInt8} {c d : Char}
  {cs pre suf : List Char} {offset : Nat}

/-! ### Calls -/

/-- A call on a stream. -/
inductive Call where
  | readByte
  | peekByte
  | readChar
  | peekChar
  | unreadChar (c : Char)
  deriving DecidableEq, Repr

/-- What a call gives that succeeds. -/
inductive Reply where
  | byte (b : UInt8)
  | char (c : Char)
  | done
  deriving DecidableEq, Repr

/-- What the call gives, and the stream after it, if it succeeds. -/
def Call.perform? (s : InputStream) : Call → Option (Reply × InputStream)
  | readByte => s.readByte?.map fun (b, s) => (.byte b, s)
  | peekByte => s.peekByte?.map fun b => (.byte b, s)
  | readChar => s.readChar?.map fun (c, s) => (.char c, s)
  | peekChar => s.peekChar?.map fun c => (.char c, s)
  | unreadChar c => (s.unreadChar? c).map fun s => (.done, s)

/-- The log after the call, which gave the reply. -/
def Call.logged (log : List UInt8) : Call → Reply → List UInt8
  | readByte, .byte b => log ++ [b]
  | readChar, .char c => log ++ encodeChar c
  | unreadChar c, .done => log.take (log.length - width c)
  | _, _ => log

/-- The stream and the log after a call; a call that fails leaves both as they are. -/
def step (w : InputStream × List UInt8) (call : Call) : InputStream × List UInt8 :=
  match call.perform? w.1 with
  | some (reply, s) => (s, call.logged w.2 reply)
  | none => w

/-- A call that fails leaves the stream and the log as they are. -/
theorem step_of_perform?_eq_none {call : Call} (h : call.perform? s = none) :
    step (s, log) call = (s, log) := by
  rw [step]
  dsimp only
  rw [h]

/-- The stream and the log after calls on a stream over the text, the first of them first. -/
def run (text : String) (calls : List Call) : InputStream × List UInt8 :=
  calls.foldl step (ofString text, [])

/-- Before any call the stream is at its start and nothing is logged. -/
@[simp] theorem run_nil (text : String) : run text [] = (ofString text, []) := rfl

/-- The last call of a run is a step from where the others lead. -/
@[simp] theorem run_concat (text : String) (calls : List Call) (call : Call) :
    run text (calls ++ [call]) = step (run text calls) call := by
  rw [run, List.foldl_append]
  rfl

/-! ### Characters at an offset -/

/-- A character at the end of a text has its bytes at the end. -/
theorem encode_concat (pre : List Char) (c : Char) :
    encode (pre ++ [c]) = encode pre ++ encodeChar c := by
  simp

/-- A character at the end of a text makes it longer by its width. -/
theorem length_encode_concat (pre : List Char) (c : Char) :
    (encode (pre ++ [c])).length = (encode pre).length + width c := by
  simp

/-- **Boundaries.** A character is found where the characters before it end, and nowhere else. -/
theorem charAt?_eq_some_iff :
    charAt? cs offset = some c ↔
      ∃ pre suf, cs = pre ++ c :: suf ∧ (encode pre).length = offset := by
  induction cs generalizing offset with
  | nil =>
    constructor
    · exact fun h => nomatch h
    · rintro ⟨pre, suf, hcs, -⟩
      exact absurd hcs (by simp)
  | cons d cs ih =>
    have hwidth := Text.Utf8.width_pos d
    -- the characters before an offset other than 0 begin with `d`
    have hsplit : ∀ n, n ≠ 0 →
        ((∃ pre suf, d :: cs = pre ++ c :: suf ∧ (encode pre).length = n) ↔
          width d ≤ n ∧ ∃ pre suf, cs = pre ++ c :: suf ∧ (encode pre).length = n - width d) := by
      intro n hn
      constructor
      · rintro ⟨pre, suf, hcs, hlength⟩
        cases pre with
        | nil => exact absurd hlength.symm hn
        | cons e pre =>
          obtain ⟨rfl, rfl⟩ := List.cons.inj hcs
          rw [Text.Utf8.encode_cons, List.length_append, Text.Utf8.length_encodeChar] at hlength
          exact ⟨by omega, pre, suf, rfl, by omega⟩
      · rintro ⟨hle, pre, suf, rfl, hlength⟩
        refine ⟨d :: pre, suf, rfl, ?_⟩
        rw [Text.Utf8.encode_cons, List.length_append, Text.Utf8.length_encodeChar]
        omega
    cases offset with
    | zero =>
      rw [charAt?, Option.some.injEq]
      constructor
      · rintro rfl
        exact ⟨[], cs, rfl, rfl⟩
      · rintro ⟨pre, suf, hcs, hlength⟩
        cases pre with
        | nil => exact (List.cons.inj hcs).1
        | cons e pre =>
          have := Text.Utf8.width_pos e
          rw [Text.Utf8.encode_cons, List.length_append, Text.Utf8.length_encodeChar] at hlength
          omega
    | succ n =>
      rw [charAt?, hsplit (n + 1) (by omega)]
      split
      · next hlt => exact iff_of_false (fun h => nomatch h) fun h => by omega
      · next hle => rw [ih, and_iff_right (by omega)]

/-! ### The log and the position -/

/-- The log is what is behind the position of a stream over the text. -/
structure IsBehind (text : String) (s : InputStream) (log : List UInt8) : Prop where
  text_eq : s.text = text
  log_eq : log = (encode text.toList).take s.position
  position_le : s.position ≤ (encode text.toList).length

namespace IsBehind

/-- The bytes of the stream are those of the text that it was opened on. -/
theorem bytes_eq (hs : IsBehind text s log) : s.bytes = encode text.toList := by
  rw [bytes, hs.text_eq]

/-- The log is as long as the position says. -/
theorem length_log (hs : IsBehind text s log) : log.length = s.position := by
  rw [hs.log_eq, List.length_take, Nat.min_eq_left hs.position_le]

/-- The log is a beginning of the text exactly if it is as long as that. -/
theorem log_eq_encode_iff (hs : IsBehind text s log) (htext : text.toList = pre ++ suf) :
    log = encode pre ↔ (encode pre).length = s.position := by
  constructor
  · rintro rfl
    exact hs.length_log
  · intro hlength
    rw [hs.log_eq, htext, Text.Utf8.encode_append, ← hlength, List.take_left']
    rfl

/-- A stream is at its end when the whole text is logged. -/
theorem isAtEnd_iff (hs : IsBehind text s log) :
    s.isAtEnd = true ↔ log = encode text.toList := by
  have hle := hs.position_le
  rw [isAtEnd, hs.bytes_eq, decide_eq_true_iff, hs.log_eq_encode_iff (List.append_nil _).symm]
  omega

/-- The next byte is the byte of the text at the position. -/
theorem peekByte?_eq (hs : IsBehind text s log) :
    s.peekByte? = (encode text.toList)[s.position]? := by
  rw [peekByte?, hs.bytes_eq]

/-- There is no next byte exactly at the end. -/
theorem peekByte?_eq_none_iff (hs : IsBehind text s log) :
    s.peekByte? = none ↔ s.isAtEnd = true := by
  rw [hs.peekByte?_eq, List.getElem?_eq_none_iff, isAtEnd, hs.bytes_eq, decide_eq_true_iff]

/-- A character is read that begins where the log ends. -/
theorem peekChar?_eq_some_iff (hs : IsBehind text s log) :
    s.peekChar? = some c ↔ ∃ pre suf, text.toList = pre ++ c :: suf ∧ log = encode pre := by
  rw [peekChar?, hs.text_eq, charAt?_eq_some_iff]
  refine exists_congr fun pre => exists_congr fun suf => and_congr_right fun htext => ?_
  exact (hs.log_eq_encode_iff htext).symm

/-- A character is stepped back over that the log ends with. -/
theorem unreadChar?_eq_some_iff (hs : IsBehind text s log) :
    s.unreadChar? c = some s' ↔
      (∃ pre suf, text.toList = pre ++ c :: suf ∧ log = encode (pre ++ [c])) ∧
        s' = ⟨s.text, s.position - width c⟩ := by
  -- where `c` begins that many bytes back, the log ends with it, and the other way round
  have hwhere : (width c ≤ s.position ∧ charAt? s.text.toList (s.position - width c) = some c) ↔
      ∃ pre suf, text.toList = pre ++ c :: suf ∧ log = encode (pre ++ [c]) := by
    rw [hs.text_eq, charAt?_eq_some_iff]
    constructor
    · rintro ⟨hle, pre, suf, htext, hlength⟩
      have hnext : text.toList = (pre ++ [c]) ++ suf := by simp [htext]
      refine ⟨pre, suf, htext, (hs.log_eq_encode_iff hnext).mpr ?_⟩
      rw [length_encode_concat, hlength]
      omega
    · rintro ⟨pre, suf, htext, hlog⟩
      have hnext : text.toList = (pre ++ [c]) ++ suf := by simp [htext]
      have hlength := (hs.log_eq_encode_iff hnext).mp hlog
      rw [length_encode_concat] at hlength
      exact ⟨by omega, pre, suf, htext, by omega⟩
  rw [unreadChar?, ← hwhere]
  split
  · next h => rw [and_iff_right h, Option.some.injEq, eq_comm]
  · next h => exact iff_of_false (fun h' => nomatch h') fun h' => h h'.1

/-- A stream that has read a beginning of the text. -/
theorem of_prefix (htext : text.toList = pre ++ suf) :
    IsBehind text ⟨text, (encode pre).length⟩ (encode pre) where
  text_eq := rfl
  log_eq := by rw [htext, Text.Utf8.encode_append, List.take_left]
  position_le := by simp [htext]

/-- A byte that is read is logged. -/
theorem readByte (hs : IsBehind text s log) (hread : s.readByte? = some (b, s')) :
    IsBehind text s' (log ++ [b]) := by
  obtain ⟨b, hpeek, hb⟩ := Option.map_eq_some_iff.mp hread
  obtain ⟨rfl, rfl⟩ := Prod.mk.inj hb
  rw [hs.peekByte?_eq] at hpeek
  obtain ⟨hlt, -⟩ := List.getElem?_eq_some_iff.mp hpeek
  refine ⟨hs.text_eq, ?_, hlt⟩
  -- a byte further on in the text, the log takes in one byte more
  show log ++ [b] = (encode text.toList).take (s.position + 1)
  rw [List.take_add_one, hpeek, hs.log_eq]
  rfl

/-- Reading a character moves on from the one beginning of the text to the next. -/
theorem readChar?_eq_some_iff (hs : IsBehind text s log) :
    s.readChar? = some (c, s') ↔
      (∃ pre suf, text.toList = pre ++ c :: suf ∧ log = encode pre) ∧
        s' = ⟨s.text, s.position + width c⟩ := by
  rw [readChar?, ← hs.peekChar?_eq_some_iff, Option.map_eq_some_iff]
  constructor
  · rintro ⟨d, hpeek, hd⟩
    obtain ⟨rfl, rfl⟩ := Prod.mk.inj hd
    exact ⟨hpeek, rfl⟩
  · rintro ⟨hpeek, rfl⟩
    exact ⟨c, hpeek, rfl⟩

/-- The bytes of a character that is read are logged. -/
theorem readChar (hs : IsBehind text s log) (hread : s.readChar? = some (c, s')) :
    IsBehind text s' (log ++ encodeChar c) := by
  obtain ⟨⟨pre, suf, htext, rfl⟩, rfl⟩ := hs.readChar?_eq_some_iff.mp hread
  have hnext : text.toList = (pre ++ [c]) ++ suf := by simp [htext]
  have hlength : (encode (pre ++ [c])).length = s.position + width c := by
    rw [length_encode_concat, hs.length_log]
  rw [hs.text_eq, ← hlength, ← encode_concat]
  exact of_prefix hnext

/-- The bytes of a character that is taken back are taken off the log. -/
theorem unreadChar (hs : IsBehind text s log) (hunread : s.unreadChar? c = some s') :
    IsBehind text s' (log.take (log.length - width c)) := by
  obtain ⟨-, rfl⟩ := hs.unreadChar?_eq_some_iff.mp hunread
  refine ⟨hs.text_eq, ?_, Nat.le_trans (Nat.sub_le _ _) hs.position_le⟩
  show _ = (encode text.toList).take (s.position - width c)
  rw [hs.length_log, hs.log_eq, List.take_take, Nat.min_eq_left (Nat.sub_le _ _)]

/-- **One call.** The log stays what is behind the position. -/
theorem step (hs : IsBehind text s log) (call : Call) :
    IsBehind text (InputStream.step (s, log) call).1 (InputStream.step (s, log) call).2 := by
  rw [InputStream.step]
  cases hperform : call.perform? s with
  | none => exact hs
  | some result =>
    obtain ⟨reply, s'⟩ := result
    -- peeks leave both as they are, reads move both, and taking back moves both the other way
    cases call with
    | readByte =>
      obtain ⟨⟨b, s'⟩, hread, hresult⟩ := Option.map_eq_some_iff.mp hperform
      obtain ⟨rfl, rfl⟩ := Prod.mk.inj hresult
      exact hs.readByte hread
    | peekByte =>
      obtain ⟨b, -, hresult⟩ := Option.map_eq_some_iff.mp hperform
      obtain ⟨rfl, rfl⟩ := Prod.mk.inj hresult
      exact hs
    | readChar =>
      obtain ⟨⟨c, s'⟩, hread, hresult⟩ := Option.map_eq_some_iff.mp hperform
      obtain ⟨rfl, rfl⟩ := Prod.mk.inj hresult
      exact hs.readChar hread
    | peekChar =>
      obtain ⟨c, -, hresult⟩ := Option.map_eq_some_iff.mp hperform
      obtain ⟨rfl, rfl⟩ := Prod.mk.inj hresult
      exact hs
    | unreadChar c =>
      obtain ⟨s', hunread, hresult⟩ := Option.map_eq_some_iff.mp hperform
      obtain ⟨rfl, rfl⟩ := Prod.mk.inj hresult
      exact hs.unreadChar hunread

end IsBehind

/-- **A run of calls.** At any time the log is what is behind the position. -/
theorem isBehind_run (text : String) (calls : List Call) :
    IsBehind text (run text calls).1 (run text calls).2 := by
  -- on the calls from the last one, as a run is built by its last step
  induction calls using List.reverseRecOn with
  | nil =>
    rw [run_nil]
    exact IsBehind.of_prefix (List.nil_append _).symm
  | append_singleton calls call ih =>
    rw [run_concat]
    exact ih.step call

/-! ### What the log decides -/

/-- The log ends between two characters of the text, before the first or after the last. -/
def EndsOnBoundary (text : String) (log : List UInt8) : Prop :=
  ∃ pre suf, text.toList = pre ++ suf ∧ log = encode pre

/-- What is known of a stream over the text from the log of what was read. -/
structure LogLaws (text : String) (s : InputStream) (log : List UInt8) : Prop where
  /-- The log is what is behind the position, which is never past the end. -/
  behind : IsBehind text s log
  isAtEnd : s.isAtEnd = true ↔ log = encode text.toList
  readByte_fails : s.readByte? = none ↔ s.isAtEnd = true
  peekByte_fails : s.peekByte? = none ↔ s.isAtEnd = true
  /-- The byte that is given is the one that follows the log in the text. -/
  readByte_gives (b : UInt8) :
    (∃ s', s.readByte? = some (b, s')) ↔ (log ++ [b]) <+: encode text.toList
  peekByte_gives (b : UInt8) : s.peekByte? = some b ↔ (log ++ [b]) <+: encode text.toList
  readChar_succeeds : s.readChar?.isSome ↔ s.isAtEnd = false ∧ EndsOnBoundary text log
  peekChar_succeeds : s.peekChar?.isSome ↔ s.isAtEnd = false ∧ EndsOnBoundary text log
  /-- The character that is given is the one that begins in the text where the log ends. -/
  readChar_gives (c : Char) :
    (∃ s', s.readChar? = some (c, s')) ↔
      ∃ pre suf, text.toList = pre ++ c :: suf ∧ log = encode pre
  peekChar_gives (c : Char) :
    s.peekChar? = some c ↔ ∃ pre suf, text.toList = pre ++ c :: suf ∧ log = encode pre
  /-- A character can be stepped back over if the log ends on a boundary, and it is the last one. -/
  unreadChar_succeeds (c : Char) :
    (s.unreadChar? c).isSome ↔
      ∃ pre suf, text.toList = pre ++ c :: suf ∧ log = encode (pre ++ [c])
  /-- What stepping back takes off the log is the character. -/
  unreadChar_log (c : Char) :
    (s.unreadChar? c).isSome → log = log.take (log.length - width c) ++ encodeChar c
  /-- Stepping back undoes reading. -/
  unreadChar_undoes (c : Char) (s' : InputStream) :
    s.readChar? = some (c, s') → s'.unreadChar? c = some s
  /-- When a call fails, nothing moves. -/
  fails (call : Call) : call.perform? s = none → step (s, log) call = (s, log)

namespace IsBehind

/-- A byte is the next one exactly if it follows the log in the text. -/
theorem peekByte?_eq_some_iff (hs : IsBehind text s log) :
    s.peekByte? = some b ↔ (log ++ [b]) <+: encode text.toList := by
  rw [hs.peekByte?_eq, List.prefix_iff_eq_take, List.length_append, hs.length_log,
    List.length_singleton, List.take_add_one, hs.log_eq, List.append_cancel_left_eq]
  cases (encode text.toList)[s.position]? with
  | none => simp
  | some d => simp [eq_comm]

/-- Reading gives the byte that a peek shows. -/
theorem readByte?_gives_iff (hs : IsBehind text s log) :
    (∃ s', s.readByte? = some (b, s')) ↔ (log ++ [b]) <+: encode text.toList := by
  rw [← hs.peekByte?_eq_some_iff, readByte?]
  simp

/-- A character is read exactly if the log ends in front of it. -/
theorem readChar?_gives_iff (hs : IsBehind text s log) :
    (∃ s', s.readChar? = some (c, s')) ↔
      ∃ pre suf, text.toList = pre ++ c :: suf ∧ log = encode pre := by
  simp only [hs.readChar?_eq_some_iff, exists_and_left, exists_eq, and_true]

/-- There is a next character unless the stream is at its end or inside a character. -/
theorem peekChar?_isSome_iff (hs : IsBehind text s log) :
    s.peekChar?.isSome ↔ s.isAtEnd = false ∧ EndsOnBoundary text log := by
  rw [Option.isSome_iff_exists, ← Bool.not_eq_true, hs.isAtEnd_iff]
  constructor
  · rintro ⟨c, hpeek⟩
    obtain ⟨pre, suf, htext, rfl⟩ := hs.peekChar?_eq_some_iff.mp hpeek
    refine ⟨fun hend => ?_, pre, c :: suf, htext, rfl⟩
    -- a text that goes on after the log is longer
    have hwidth := Text.Utf8.width_pos c
    have hlength := congrArg List.length hend
    rw [htext, Text.Utf8.encode_append, Text.Utf8.encode_cons, List.length_append,
      List.length_append, Text.Utf8.length_encodeChar] at hlength
    omega
  · rintro ⟨hend, pre, suf, htext, rfl⟩
    cases suf with
    | nil => exact absurd (by rw [htext, List.append_nil]) hend
    | cons c suf => exact ⟨c, hs.peekChar?_eq_some_iff.mpr ⟨pre, suf, htext, rfl⟩⟩

/-- A character can be taken back exactly if the log ends behind it. -/
theorem unreadChar?_isSome_iff (hs : IsBehind text s log) :
    (s.unreadChar? c).isSome ↔
      ∃ pre suf, text.toList = pre ++ c :: suf ∧ log = encode (pre ++ [c]) := by
  simp only [Option.isSome_iff_exists, hs.unreadChar?_eq_some_iff, exists_and_left, exists_eq,
    and_true]

/-- What is taken off the log is the encoding of the character. -/
theorem log_of_unreadChar? (hs : IsBehind text s log) (hunread : (s.unreadChar? c).isSome) :
    log = log.take (log.length - width c) ++ encodeChar c := by
  obtain ⟨pre, suf, -, rfl⟩ := hs.unreadChar?_isSome_iff.mp hunread
  rw [length_encode_concat, Nat.add_sub_cancel, encode_concat, List.take_left]

/-- Stepping back over the character that was just read leads to where it was read. -/
theorem unreadChar?_of_readChar? (hs : IsBehind text s log) (hread : s.readChar? = some (c, s')) :
    s'.unreadChar? c = some s := by
  have hs' := hs.readChar hread
  obtain ⟨⟨pre, suf, htext, rfl⟩, rfl⟩ := hs.readChar?_eq_some_iff.mp hread
  refine hs'.unreadChar?_eq_some_iff.mpr ⟨⟨pre, suf, htext, by simp⟩, ?_⟩
  show s = ⟨s.text, s.position + width c - width c⟩
  rw [Nat.add_sub_cancel]

end IsBehind

/-- **The log.** Whatever is called on a stream over a text, one call after the other: the log is the
part of the text that is behind the position, and decides which calls succeed and what they give. -/
theorem logLaws_run (text : String) (calls : List Call) :
    LogLaws text (run text calls).1 (run text calls).2 := by
  -- all of this follows from the log being the beginning of the text up to the position
  generalize run text calls = w, isBehind_run text calls = hs
  obtain ⟨s, log⟩ := w
  exact {
    behind := hs
    isAtEnd := hs.isAtEnd_iff
    readByte_fails := by rw [readByte?, Option.map_eq_none_iff, hs.peekByte?_eq_none_iff]
    peekByte_fails := hs.peekByte?_eq_none_iff
    readByte_gives := fun b => hs.readByte?_gives_iff
    peekByte_gives := fun b => hs.peekByte?_eq_some_iff
    readChar_succeeds := by rw [readChar?, Option.isSome_map, hs.peekChar?_isSome_iff]
    peekChar_succeeds := hs.peekChar?_isSome_iff
    readChar_gives := fun c => hs.readChar?_gives_iff
    peekChar_gives := fun c => hs.peekChar?_eq_some_iff
    unreadChar_succeeds := fun c => hs.unreadChar?_isSome_iff
    unreadChar_log := fun c => hs.log_of_unreadChar?
    unreadChar_undoes := fun c s' => hs.unreadChar?_of_readChar?
    fails := fun call hperform => step_of_perform?_eq_none hperform }

-- inside a character none is read, and after its last byte it can be stepped back over
example : (run "é" [.readByte, .readChar]).2 = [0xC3] := by decide
example : (run "é" [.readByte, .readByte, .unreadChar 'é']).2 = [] := by decide

end LispObjects.InputStream
