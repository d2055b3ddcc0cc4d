import LispObjects.Proofs.Action.Streams
import LispObjects.Proofs.Realm.Registration
import LispObjects.Proofs.World.Instances

namespace LispObjects.World

/-!
# Numbers written as bytes

A number of any size and with any places is written to an output stream, in a world that any run has led
to.

* `ReadAs` — what a reader is given for a byte;
* `written_after_writeByte` — one write adds the byte that is left of the number without its places, or
  nothing;
* `written_run_writes` — so a run of writes adds the bytes that are left, in their order;
* `byteLaws_run` — which numbers are written and what is read back of them, and how the others are refused.
-/

variable {w : World} {events : List Event} {i : Nat} {r : Realm} {sink : Ref .output} {d : Decimal}
  {b : UInt8}

/-- The bytes of an output stream. -/
def written (w : World) (sink : Ref .output) : List UInt8 :=
  (w.heap.outputs.read sink).bytes.toList

/-- Whoever reads the byte from an input stream is given the number. -/
def ReadAs (b : UInt8) (x : Decimal) : Prop :=
  ∀ (w : World) i r source atEnd, w.realms[i]? = some r →
    (w.heap.inputs.read source).peekByte? = some b →
      (w.perform i (.readByte (.inputStream source) atEnd)).1 = some (.ok (.value (.number x)))

/-- The event that writes a number as a byte. -/
def writeEvent (i : Nat) (sink : Ref .output) (d : Decimal) : Event :=
  .perform i (.writeByte (.outputStream sink) (.number d))

/-- What is written to the output stream `sink` in the realm `i`, after the events. -/
structure ByteLaws (events : List Event) (i : Nat) (sink : Ref .output) : Prop where
  /-- A number is written exactly if it is more than -1 and less than 256. -/
  written_iff : ∀ d : Decimal,
    ((run events).perform i (.writeByte (.outputStream sink) (.number d))).1 = some (.ok .done) ↔
      -1 < d.toRat ∧ d.toRat < 256
  /-- One byte is added to the stream then, the number without its places.  That is what is read back, so it
  is the number itself exactly if that is an integer. -/
  added : ∀ d : Decimal, -1 < d.toRat → d.toRat < 256 → ∃ (b : UInt8) (x : Decimal),
    b.toNat = ⌊d.toRat⌋₊ ∧
      ((run events).after (writeEvent i sink d)).written sink = (run events).written sink ++ [b] ∧
      ReadAs b x ∧ x.toRat = ⌊d.toRat⌋₊ ∧ (x = d ↔ ∃ n : ℤ, d.toRat = n)
  /-- Any other number is blamed for being none, and nothing is written. -/
  refused : ∀ d : Decimal, ¬ (-1 < d.toRat ∧ d.toRat < 256) →
    (run events).FailsBlaming i (.writeByte (.outputStream sink) (.number d)) (.number d)
        (.builtIn .number) ∧
      ((run events).after (writeEvent i sink d)).heap.outputs = (run events).heap.outputs
  /-- No other stream is ever touched. -/
  others : ∀ (d : Decimal) (t : Ref .output), t ≠ sink →
    ((run events).after (writeEvent i sink d)).written t = (run events).written t
  /-- Of numbers that are written one after the other the bytes are added in that order. -/
  writes : ∀ ds : List Decimal,
    (run (events ++ ds.map (writeEvent i sink))).written sink =
      (run events).written sink ++ ds.filterMap Decimal.byte?

/-! ### One write -/

/-- A number that is a byte is written as that byte. -/
theorem runOn_writeByte_some (sink : Ref .output) (h : d.byte? = some b) (image : Image) :
    (Operation.writeByte (.outputStream sink) (.number d)).action.runOn image =
      (.ok .done, { image with heap.outputs :=
        image.heap.outputs.write sink ((image.heap.outputs.read sink).add [b]) }) := by
  have hbytes : Piece.byte.bytesOf (.number d) = .ok [b] := by rw [Piece.bytesOf_number, h]
  have hwrite := Piece.runOn_write .byte (.outputStream sink) (.number d) image
  rw [hbytes] at hwrite
  exact hwrite

/-- A number that is no byte is refused with nothing written. -/
theorem runOn_writeByte_none (sink : Ref .output) (h : d.byte? = none) (image : Image) :
    (Operation.writeByte (.outputStream sink) (.number d)).action.runOn image =
      (.error (.notA .number (.number d)), image) := by
  have hbytes : Piece.byte.bytesOf (.number d) = .error (.notA .number (.number d)) := by
    rw [Piece.bytesOf_number, h]
  have hwrite := Piece.runOn_write .byte (.outputStream sink) (.number d) image
  rw [hbytes] at hwrite
  exact hwrite

/-- All that a write does to the output streams. -/
theorem outputs_after_writeByte (hr : w.realms[i]? = some r) (sink : Ref .output) (d : Decimal) :
    (w.after (writeEvent i sink d)).heap.outputs =
      match d.byte? with
      | some b => w.heap.outputs.write sink ((w.heap.outputs.read sink).add [b])
      | none => w.heap.outputs := by
  rw [writeEvent, after]
  cases hbyte : d.byte? with
  | some b =>
    obtain ⟨after, hperform, hheap, -⟩ :=
      perform_of_runOn_ok hr (runOn_writeByte_some sink hbyte ⟨w.heap, r⟩)
    rw [hperform, hheap]
  | none =>
    -- the report of the fault is an object, and no stream
    obtain ⟨after, hperform, hheap, -⟩ :=
      perform_of_runOn_error hr (runOn_writeByte_none sink hbyte ⟨w.heap, r⟩)
    rw [hperform, hheap, (w.heap.grows_report r _).outputs]

/-- **One write.** The byte that is left of the number is added, if one is. -/
theorem written_after_writeByte (hr : w.realms[i]? = some r) (hsink : w.heap.outputs.Contains sink)
    (d : Decimal) :
    (w.after (writeEvent i sink d)).written sink = w.written sink ++ d.byte?.toList := by
  rw [written, outputs_after_writeByte hr]
  cases d.byte? with
  | some b =>
    rw [Store.read_write hsink, if_pos rfl, OutputStream.bytes_add]
    rfl
  | none => exact (List.append_nil _).symm

/-- No other stream is written to. -/
theorem written_after_writeByte_of_ne (hr : w.realms[i]? = some r)
    (hsink : w.heap.outputs.Contains sink) (d : Decimal) {t : Ref .output} (ht : t ≠ sink) :
    (w.after (writeEvent i sink d)).written t = w.written t := by
  rw [written, outputs_after_writeByte hr]
  cases d.byte? with
  | some b => rw [Store.read_write hsink, if_neg ht, written]
  | none => rfl

/-- A stream is not lost by a write. -/
theorem contains_after_writeByte (hr : w.realms[i]? = some r) (hsink : w.heap.outputs.Contains sink)
    (d : Decimal) : (w.after (writeEvent i sink d)).heap.outputs.Contains sink := by
  rw [outputs_after_writeByte hr]
  cases d.byte? with
  | some b => exact Store.contains_write.mpr hsink
  | none => exact hsink

/-- A byte is read back as the whole number that it says. -/
theorem readAs_ofInt (b : UInt8) : ReadAs b (.ofInt b.toNat) := by
  intro w i r source atEnd hr hpeek
  have hnext : Piece.byte.next? ((Image.mk w.heap r).heap.inputs.read source) =
      some (.ofByte b, { w.heap.inputs.read source with
        position := (w.heap.inputs.read source).position + 1 }) := by
    rw [Piece.next?, InputStream.readByte?, hpeek]
    rfl
  have hrun : (Operation.readByte (.inputStream source) atEnd).action.runOn ⟨w.heap, r⟩ =
      (.ok (.value (.ofByte b)), _) :=
    Piece.runOn_read_some hnext atEnd
  obtain ⟨after, hperform, -⟩ := perform_of_runOn_ok hr hrun
  rw [hperform]
  rfl

/-! ### Runs of writes -/

/-- **A run of writes.** Each adds its byte or nothing, so the numbers that are no bytes leave no trace. -/
theorem written_run_writes (hr : (run events).realms[i]? = some r)
    (hsink : (run events).heap.outputs.Contains sink) (ds : List Decimal) :
    (run (events ++ ds.map (writeEvent i sink))).written sink =
      (run events).written sink ++ ds.filterMap Decimal.byte? := by
  -- on the first number, as the later ones are written after any events that have the realm and the stream
  induction ds generalizing events r with
  | nil => rw [List.map_nil, List.append_nil, List.filterMap_nil, List.append_nil]
  | cons d ds ih =>
    obtain ⟨r', hr', -⟩ := exists_extends_after hr (writeEvent i sink d)
    have hsink' := contains_after_writeByte hr hsink d
    have hwritten := written_after_writeByte hr hsink d
    rw [← run_concat] at hr' hsink' hwritten
    rw [List.map_cons, List.append_cons, ih hr' hsink', hwritten, List.append_assoc]
    cases hbyte : d.byte? with
    | some b => rw [List.filterMap_cons_some hbyte]; rfl
    | none => rw [List.filterMap_cons_none hbyte]; rfl

/-! ### All writes -/

/-- A whole part that is a byte is the number exactly if the number is an integer. -/
theorem ofInt_floor_eq_iff (hlow : -1 < d.toRat) :
    Decimal.ofInt ⌊d.toRat⌋₊ = d ↔ ∃ n : ℤ, d.toRat = n := by
  rw [Decimal.ofInt_eq_iff]
  refine ⟨fun h => ⟨_, h⟩, ?_⟩
  rintro ⟨n, hn⟩
  have hnonneg : 0 ≤ n := by
    rw [hn] at hlow
    have hcast : -1 < n := by exact_mod_cast hlow
    omega
  obtain ⟨k, rfl⟩ := Int.eq_ofNat_of_zero_le hnonneg
  have hfloor : ⌊d.toRat⌋₊ = k := by rw [hn, Int.cast_natCast, Nat.floor_natCast]
  rw [hfloor]
  exact hn

/-- **Bytes.** To every output stream, in every realm that is ever reached. -/
theorem byteLaws_run (hr : (run events).realms[i]? = some r)
    (hsink : (run events).heap.outputs.Contains sink) : ByteLaws events i sink := by
  constructor
  case written_iff =>
    intro d
    -- a write is accepted exactly where the number has a byte
    cases hbyte : d.byte? with
    | some b =>
      obtain ⟨after, hperform, -⟩ := perform_of_runOn_ok hr (runOn_writeByte_some sink hbyte _)
      obtain ⟨hlow, hhigh, -⟩ := Decimal.byte?_eq_some_iff.mp hbyte
      exact iff_of_true (congrArg Prod.fst hperform) ⟨hlow, hhigh⟩
    | none =>
      obtain ⟨after, hperform, -⟩ := perform_of_runOn_error hr (runOn_writeByte_none sink hbyte _)
      refine iff_of_false ?_ (Decimal.byte?_eq_none_iff.mp hbyte)
      rw [hperform]
      exact nofun
  case added =>
    intro d hlow hhigh
    obtain ⟨b, hbyte⟩ : ∃ b, d.byte? = some b :=
      Option.ne_none_iff_exists'.mp fun hnone => Decimal.byte?_eq_none_iff.mp hnone ⟨hlow, hhigh⟩
    obtain ⟨-, -, hb⟩ := Decimal.byte?_eq_some_iff.mp hbyte
    have hwritten := written_after_writeByte hr hsink d
    rw [hbyte] at hwritten
    -- the byte is the floor of the number, so it is read back as that
    have hread := readAs_ofInt b
    rw [hb] at hread
    refine ⟨b, _, hb, hwritten, hread, ?_, ofInt_floor_eq_iff hlow⟩
    rw [Decimal.toRat_ofInt, Int.cast_natCast]
  case refused =>
    intro d hrange
    have hbyte := Decimal.byte?_eq_none_iff.mpr hrange
    refine ⟨failsBlaming_of_runOn hr trivial (runOn_writeByte_none sink hbyte _), ?_⟩
    rw [outputs_after_writeByte hr, hbyte]
  case others =>
    intro d t ht
    exact written_after_writeByte_of_ne hr hsink d ht
  case writes =>
    exact written_run_writes hr hsink

/-! ### Fractions -/

/-- The first realm of a world makes an output stream. -/
def outputMade : List Event :=
  [.newRealm {}, .perform 0 .makeOutput]

/-- Nothing is written to it yet. -/
theorem exists_outputMade :
    ∃ r, (run outputMade).realms[0]? = some r ∧ (run outputMade).heap.outputs.Contains ⟨0⟩ ∧
      (run outputMade).written ⟨0⟩ = [] := by
  have hsplit : outputMade = [.newRealm {}] ++ [.perform 0 .makeOutput] := rfl
  have hrun : Operation.makeOutput.action.runOn
      ⟨(run [.newRealm {}]).heap, (Realm.boot {} 0 .empty).1⟩ =
        (.ok (.value (run [.newRealm {}]).heap.newOutput.1),
          ⟨(run [.newRealm {}]).heap.newOutput.2, (Realm.boot {} 0 .empty).1⟩) := rfl
  obtain ⟨after, hperform, hheap, hafter⟩ := perform_of_runOn_ok (realm_run_newRealm {}) hrun
  have hworld : run outputMade = after := by rw [hsplit, run_concat, World.after, hperform]
  -- the realm was made without streams
  have houtputs : (run outputMade).heap.outputs = (Store.empty.alloc .empty).2 := by
    have hfirst : run [.newRealm {}] = empty.after (.newRealm {}) := run_concat [] _
    obtain ⟨frames, hframes⟩ := Realm.exists_heap_boot {} empty.realms.size empty.heap
    rw [hworld, hheap, hfirst, heap_newRealm, hframes]
    rfl
  refine ⟨(Realm.boot {} 0 .empty).1, ?_, ?_, ?_⟩
  · rw [hworld]
    exact hafter
  · rw [houtputs]
    decide
  · rw [written, houtputs]
    rfl

/-- The number 1.5. -/
def oneAndHalf : Decimal :=
  ⟨15, 1, .inr (by decide)⟩

/-- It denotes three halves. -/
theorem toRat_oneAndHalf : oneAndHalf.toRat = 3 / 2 := by
  rw [Decimal.toRat_eq_div]
  norm_num [oneAndHalf]

/-- A fraction is written, as the byte 1. -/
theorem byteLaws_oneAndHalf :
    ∃ r, (run outputMade).realms[0]? = some r ∧ (run outputMade).heap.outputs.Contains ⟨0⟩ ∧
      ByteLaws outputMade 0 ⟨0⟩ ∧
      ((run outputMade).perform 0 (.writeByte (.outputStream ⟨0⟩) (.number oneAndHalf))).1 =
        some (.ok .done) := by
  obtain ⟨r, hr, hsink, -⟩ := exists_outputMade
  have hlaws := byteLaws_run hr hsink
  refine ⟨r, hr, hsink, hlaws, (hlaws.written_iff oneAndHalf).mpr ?_⟩
  rw [toRat_oneAndHalf]
  norm_num

/-- So it is not only the integers from 0 to 255 that are written. -/
theorem not_integer_of_written :
    ((run outputMade).after (writeEvent 0 ⟨0⟩ oneAndHalf)).written ⟨0⟩ = [1] ∧
      ¬ (((run outputMade).perform 0 (.writeByte (.outputStream ⟨0⟩) (.number oneAndHalf))).1 =
            some (.ok .done) ↔
          ∃ n : ℤ, oneAndHalf.toRat = n ∧ 0 ≤ n ∧ n ≤ 255) := by
  obtain ⟨r, hr, hsink, hempty⟩ := exists_outputMade
  have hfloor : ⌊(3 / 2 : ℚ)⌋₊ = 1 := by
    rw [Nat.floor_eq_iff (by norm_num)]
    norm_num
  have hbyte : oneAndHalf.byte? = some 1 := by
    rw [Decimal.byte?_eq_some_iff, toRat_oneAndHalf, hfloor]
    exact ⟨by norm_num, by norm_num, rfl⟩
  obtain ⟨after, hperform, -⟩ :=
    perform_of_runOn_ok hr (runOn_writeByte_some ⟨0⟩ hbyte ⟨(run outputMade).heap, r⟩)
  refine ⟨?_, fun honly => ?_⟩
  · rw [written_after_writeByte hr hsink, hempty, hbyte]
    rfl
  obtain ⟨n, hn, -⟩ := honly.mp (congrArg Prod.fst hperform)
  rw [toRat_oneAndHalf] at hn
  -- twice the number would be odd and even
  have htwice : (3 : ℤ) = 2 * n := by
    have hcast : (3 : ℚ) = 2 * n := by linarith
    exact_mod_cast hcast
  omega

end LispObjects.World
