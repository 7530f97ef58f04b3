import ChangeFeed.Destination.Stream
import ChangeFeed.Proofs.Json.Visible
import ChangeFeed.Proofs.Wire.RoundTrip
import ChangeFeed.Rehearsal.Tape

/-!
# One mutation a line

**Streams** (`ByteSink.Takes`). A stream that does not fail takes at least one byte of what it is
given, after the bytes that it has. How many it takes at a time does not matter: a batch is written
until all of it is taken.

**Lines** (`Codec.Frames`). A codec frames a mutation when it writes it as one line that is not
empty and reads that line as the mutation. Cutting at line feeds then gives the lines back, and the
last line feed leaves an empty piece after it.

Main result: `lines_come_back`. Whatever the batches and the texts in them are, what was written is
read back line by line as all mutations in order.
-/

namespace ChangeFeed

variable {ω : Type}

/-! ## Streams that do not fail -/

namespace ByteSink

/-- The stream takes bytes whenever it is given any, and can be flushed; `content` are the bytes
that it has taken. -/
structure Takes (sink : ByteSink ω) (content : ω → List UInt8) : Prop where
  write : ∀ bs w, bs ≠ [] → ∃ n w', sink.write bs w = (.ok n, w') ∧ 0 < n ∧ n ≤ bs.length ∧
    content w' = content w ++ bs.take n
  flush : ∀ w, ∃ w', sink.flush w = (.ok (), w') ∧ content w' = content w

variable {sink : ByteSink ω} {content : ω → List UInt8}

theorem Takes.writeAll (h : sink.Takes content) (bs : List UInt8) (w : ω) :
    ∃ w', sink.writeAll bs w = (.ok (), w') ∧ content w' = content w ++ bs := by
  induction hn : bs.length using Nat.strong_induction_on generalizing bs w with
  | _ k ih =>
    cases bs with
    | nil => exact ⟨w, by rw [ByteSink.writeAll], by rw [List.append_nil]⟩
    | cons b rest =>
      obtain ⟨n, w₁, hw, hpos, hle, hc⟩ := h.write (b :: rest) w (List.cons_ne_nil _ _)
      obtain ⟨n, rfl⟩ := Nat.exists_eq_succ_of_ne_zero hpos.ne'
      have hlt : (rest.drop n).length < k := by
        rw [List.length_drop, ← hn, List.length_cons]
        omega
      obtain ⟨w₂, hrest, hc'⟩ := ih _ hlt (rest.drop n) w₁ rfl
      refine ⟨w₂, ?_, ?_⟩
      · rw [ByteSink.writeAll, hw]
        exact hrest
      · rw [hc', hc, List.append_assoc, List.take_succ_cons, List.cons_append,
          List.take_append_drop]

end ByteSink

/-! ## Lines -/

/-- The lines one after the other, each with its line feed. -/
def joinLines (lines : List (List UInt8)) : List UInt8 :=
  lines.flatMap (· ++ [Ascii.lineFeed])

@[simp] theorem joinLines_cons (l : List UInt8) (ls : List (List UInt8)) :
    joinLines (l :: ls) = l ++ Ascii.lineFeed :: joinLines ls := by
  simp [joinLines]

/-- Cutting at line feeds undoes joining, but for empty pieces. -/
theorem splitOn_joinLines {lines : List (List UInt8)}
    (h : ∀ l ∈ lines, l ≠ [] ∧ Ascii.lineFeed ∉ l) :
    ((joinLines lines).splitOn Ascii.lineFeed).filter (· ≠ []) = lines := by
  induction lines with
  | nil => rfl
  | cons l ls ih =>
    obtain ⟨⟨hne, hl⟩, hls⟩ := List.forall_mem_cons.1 h
    rw [joinLines_cons, List.splitOn_append_cons_self_of_not_mem hl,
      List.filter_cons_of_pos (by simpa using hne), ih hls]

/-- The codec writes the mutation as the line, which is not empty, and reads the line as the
mutation. -/
structure Codec.Frames (codec : Codec) (m : Mutation) (line : List UInt8) : Prop where
  encode : codec.encode m = .ok line
  decode : codec.decode line = .ok m
  ne_nil : line ≠ []
  oneLine : Ascii.lineFeed ∉ line

theorem frames_of_portable {m : Mutation} (h : m.Portable) :
    jsonCodec.Frames m (JsonForm.write m) := by
  have hm := faithful_mutation h
  obtain ⟨b, bs, hb, -⟩ := Json.exists_render hm.written
  exact
    { encode := rfl
      decode := by simp only [jsonCodec, hm.read?_write]
      ne_nil := fun hnil => List.cons_ne_nil b bs (hb.symm.trans hnil)
      oneLine := (JsonTree.visible_render hm.written).lineFeed_not_mem }

/-! ## Batches -/

/-- Publishes batches one after the other, and tells what came of each. -/
def publishBatches (codec : Codec) (sink : ByteSink ω) :
    List (List Mutation) → ω → List (Except Error Unit) × ω
  | [], w => ([], w)
  | ms :: batches, w =>
    let (r, w) := publishLines codec sink ms w
    let (rs, w) := publishBatches codec sink batches w
    (r :: rs, w)

section

variable {codec : Codec} {line : Mutation → List UInt8} {sink : ByteSink ω}
  {content : ω → List UInt8}

theorem encodeLines_of_frames {ms : List Mutation} (h : ∀ m ∈ ms, codec.Frames m (line m)) :
    encodeLines codec ms = .ok (joinLines (ms.map line)) := by
  induction ms with
  | nil => rfl
  | cons m ms ih =>
    obtain ⟨hm, hms⟩ := List.forall_mem_cons.1 h
    rw [encodeLines, hm.encode, ih hms, List.map_cons, joinLines_cons]
    rfl

theorem publishLines_of_frames (hs : sink.Takes content) {ms : List Mutation}
    (h : ∀ m ∈ ms, codec.Frames m (line m)) (w : ω) :
    ∃ w', publishLines codec sink ms w = (.ok (), w') ∧
      content w' = content w ++ joinLines (ms.map line) := by
  obtain ⟨w₁, hwrite, hc⟩ := hs.writeAll (joinLines (ms.map line)) w
  obtain ⟨w₂, hflush, hc'⟩ := hs.flush w₁
  exact ⟨w₂, by simp only [publishLines, encodeLines_of_frames h, hwrite, hflush], hc'.trans hc⟩

/-- What batches add to a stream: the lines of all mutations in order. -/
theorem publishBatches_of_frames (hs : sink.Takes content) {batches : List (List Mutation)}
    (h : ∀ ms ∈ batches, ∀ m ∈ ms, codec.Frames m (line m)) (w : ω) :
    ∃ w', publishBatches codec sink batches w = (batches.map fun _ => .ok (), w') ∧
      content w' = content w ++ joinLines (batches.flatten.map line) := by
  induction batches generalizing w with
  | nil => exact ⟨w, rfl, (List.append_nil _).symm⟩
  | cons ms batches ih =>
    obtain ⟨hms, hrest⟩ := List.forall_mem_cons.1 h
    obtain ⟨w₁, hfirst, hc⟩ := publishLines_of_frames hs hms w
    obtain ⟨w₂, hthen, hc'⟩ := ih hrest w₁
    refine ⟨w₂, by simp only [publishBatches, hfirst, hthen, List.map_cons], ?_⟩
    rw [hc', hc, List.append_assoc, List.flatten_cons, List.map_append, joinLines, joinLines,
      joinLines, List.flatMap_append]

/-- Lines that a codec framed are cut apart and read as the mutations. -/
theorem mapM_decode_joinLines {ms : List Mutation} (h : ∀ m ∈ ms, codec.Frames m (line m)) :
    (((joinLines (ms.map line)).splitOn Ascii.lineFeed).filter (· ≠ [])).mapM codec.decode =
      .ok ms := by
  rw [splitOn_joinLines fun l hl => ?_]
  · exact mapM_map fun m hm => (h m hm).decode
  · obtain ⟨m, hm, rfl⟩ := List.mem_map.1 hl
    exact ⟨(h m hm).ne_nil, (h m hm).oneLine⟩

end

/-- **What was written is read back line by line.** On a stream that does not fail every batch is
published. The bytes that the batches add, cut at their line feeds, are read piece by piece as all
the mutations in order, the empty pieces left out. -/
theorem lines_come_back {sink : ByteSink ω} {content : ω → List UInt8} (hs : sink.Takes content)
    {batches : List (List Mutation)} (hp : ∀ ms ∈ batches, ∀ m ∈ ms, m.Portable) (w : ω) :
    ∃ w' written, publishBatches jsonCodec sink batches w = (batches.map fun _ => .ok (), w') ∧
      content w' = content w ++ written ∧
      ((written.splitOn Ascii.lineFeed).filter (· ≠ [])).mapM jsonCodec.decode =
        .ok batches.flatten := by
  have hframes : ∀ ms ∈ batches, ∀ m ∈ ms, jsonCodec.Frames m (JsonForm.write m) :=
    fun ms hms m hm => frames_of_portable (hp ms hms m hm)
  obtain ⟨w', hpublish, hc⟩ := publishBatches_of_frames hs hframes w
  refine ⟨w', _, hpublish, hc, mapM_decode_joinLines fun m hm => ?_⟩
  obtain ⟨ms, hms, hm⟩ := List.mem_flatten.1 hm
  exact hframes ms hms m hm

/-- A tape with room for everything takes bytes, however few at a time. -/
theorem takes_tape {piece : Option Nat} (h : ∀ n, piece = some n → 0 < n) :
    (Rehearsal.Tape.sink ⟨none, piece, true⟩).Takes id where
  write bs w hbs := by
    have hlen := List.length_pos_iff.2 hbs
    have hn : 0 < min bs.length (piece.getD bs.length) := by
      cases piece with
      | none => simpa using hlen
      | some n => simpa using ⟨hlen, h n rfl⟩
    refine ⟨min bs.length (piece.getD bs.length), _, ?_, hn, Nat.min_le_left _ _, rfl⟩
    simp only [Rehearsal.Tape.sink, Option.getD_none, Nat.add_sub_cancel_left, Nat.min_self]
    rw [if_neg hn.ne', id]
  flush w := ⟨w, rfl, rfl⟩

/-- Line breaks in a host, a table, a text and a payload, on a tape that takes three bytes at a time
and has some already. -/
theorem lines_come_back_with_breaks :
    let table : Table := ⟨7, "t\n", "\r\n", [⟨"a\nb", .varChar, true, 0⟩], ["a\nb"]⟩
    let context : RowContext := ⟨⟨1, -1⟩, ⟨"\n", 3306, ""⟩, ⟨"log.1", 4, 4, none, none⟩, table, 1,
      none, 0⟩
    let m : Mutation := .row ⟨context, .insert (Row.ofValues table [.string "one\ntwo\n"])⟩
    let r : Mutation := .raw ⟨⟨2, 0⟩, .delete, [10, 10]⟩
    ∃ w' written,
      publishBatches jsonCodec (Rehearsal.Tape.sink ⟨none, some 3, true⟩) [[m, r], [], [m]] [9] =
        ([.ok (), .ok (), .ok ()], w') ∧
      w' = 9 :: written ∧
      ((written.splitOn Ascii.lineFeed).filter (· ≠ [])).mapM jsonCodec.decode = .ok [m, r, m] := by
  intro table context m r
  have hm : m.Portable :=
    ⟨⟨fun s hs => (Option.some_ne_none s hs.symm).elim,
      fun x hx => (Option.some_ne_none x hx.symm).elim⟩, by decide +kernel⟩
  have hr : r.Portable := trivial
  exact lines_come_back (takes_tape fun n hn => Option.some.inj hn ▸ Nat.succ_pos 2)
    (by simp [hm, hr] : ∀ ms ∈ [[m, r], [], [m]], ∀ m ∈ ms, m.Portable) [9]

end ChangeFeed
