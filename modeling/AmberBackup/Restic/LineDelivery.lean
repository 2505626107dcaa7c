import AmberBackup.Restic.ScrubbedText

/-! # Delivering lines

The server reads each stream of restic in data events, makes a text of each event by itself and
hands on the lines that are complete. What is after the last line feed is never handed on, and a
character that two events share is read as U+FFFD. The lines are those of the decoded stream,
however it is split, exactly if its last line is blank and no line has a character of several
bytes or, on the standard error, a credential to take out (`delivered_iff`).
-/

namespace AmberBackup

open LineBuffer (split cutLines)

inductive Channel where
  | stdout
  | stderr
  deriving DecidableEq, Repr

/-- The text of the bytes of an event, scrubbed on the standard error. -/
def Channel.text : Channel → Utf8.Bytes → List Char
  | .stdout, bytes => Utf8.decode bytes
  | .stderr, bytes => scrubSecretsInText (Utf8.decode bytes)

/-- Whether anything is left of a line once it is trimmed. -/
def visible (line : List Char) : Bool := line.any fun char => !jsSpace char

/-- What has been received of a stream, what is left of the last event, and the lines that have
been handed on. -/
structure StreamState where
  received : List Char := []
  buffer : List Char := []
  lines : List (List Char) := []
  deriving DecidableEq, Repr

/-- A line is handed on unless it is blank. -/
def handOn (lines : List (List Char)) (line : List Char) : List (List Char) :=
  if visible line then lines ++ [line] else lines

/-- Hands on the lines that are complete. -/
def takeLines (state : StreamState) : StreamState :=
  if _found : '\n' ∈ state.buffer then
    takeLines
      { state with
        buffer := state.buffer.drop (state.buffer.idxOf '\n' + 1)
        lines := handOn state.lines (state.buffer.take (state.buffer.idxOf '\n')) }
  else state
termination_by state.buffer.length
decreasing_by
  have filled := List.length_pos_of_mem _found
  rw [List.length_drop]
  omega

def onData (channel : Channel) (state : StreamState) (chunk : Utf8.Bytes) : StreamState :=
  takeLines
    { state with
      received := state.received ++ channel.text chunk
      buffer := state.buffer ++ channel.text chunk }

/-- A stream in the events it is read in. Closing it hands on nothing. -/
def readStream (channel : Channel) (chunks : List Utf8.Bytes) : StreamState :=
  chunks.foldl (onData channel) {}

def delivered (channel : Channel) (chunks : List Utf8.Bytes) : List (List Char) :=
  (readStream channel chunks).lines

/-- The lines of a text that are not blank, the last one among them. -/
def expectedLines (text : List Char) : List (List Char) := (text.splitOn '\n').filter visible

/-- A process that has ended, with the data events of its streams. -/
structure ResticEvents where
  code : Int
  stdout : List Utf8.Bytes := []
  stderr : List Utf8.Bytes := []

def ResticService.spawn (events : ResticEvents) : RunOutcome where
  code := events.code
  stdout := (readStream .stdout events.stdout).received
  stderr := (readStream .stderr events.stderr).received

/-! ## What the handler keeps -/

theorem takeLines_eq (state : StreamState) :
    takeLines state =
      { state with
        buffer := (split '\n' state.buffer).2
        lines := state.lines ++ (split '\n' state.buffer).1.filter visible } := by
  induction state using takeLines.induct with
  | case1 state found ih =>
      rw [takeLines, dif_pos found, ih, LineBuffer.split_of_mem found]
      simp only [StreamState.mk.injEq, true_and]
      unfold handOn
      rw [List.filter_cons]
      split
      · rw [List.append_assoc, List.singleton_append]
      · rfl
  | case2 state absent =>
      rw [takeLines, dif_neg absent, LineBuffer.split_of_not_mem absent, List.filter_nil,
        List.append_nil]

theorem readStream_eq (channel : Channel) (chunks : List Utf8.Bytes) :
    readStream channel chunks =
      { received := chunks.flatMap channel.text
        buffer := (split '\n' (chunks.flatMap channel.text)).2
        lines := (split '\n' (chunks.flatMap channel.text)).1.filter visible } := by
  induction chunks using List.reverseRecOn with
  | nil => rfl
  | append_singleton chunks chunk ih =>
      have last : readStream channel (chunks ++ [chunk]) =
          onData channel (readStream channel chunks) chunk := List.foldl_concat _ _ _ _
      rw [last, ih, onData, takeLines_eq, List.flatMap_append, List.flatMap_singleton,
        LineBuffer.split_split (chunks.flatMap channel.text), List.filter_append]

/-- The outcome of a process with the texts of its events. -/
theorem spawn_outcome (events : ResticEvents) :
    ResticService.spawn events =
      ResticProcess.outcome
        { code := events.code
          stdout := events.stdout.map Utf8.decode
          stderr := events.stderr.map Utf8.decode } := by
  unfold ResticService.spawn ResticProcess.outcome
  rw [readStream_eq, readStream_eq, List.flatMap_map]
  rfl

theorem delivered_text (channel : Channel) (chunks : List Utf8.Bytes) :
    delivered channel chunks = (split '\n' (chunks.flatMap channel.text)).1.filter visible := by
  unfold delivered
  rw [readStream_eq]

/-- Events that hold whole characters deliver the lines of their text, up to the last line feed. -/
theorem delivered_encode (texts : List (List Char)) :
    delivered .stdout (texts.map Utf8.encode) = (split '\n' texts.flatten).1.filter visible := by
  have read : Channel.stdout.text ∘ Utf8.encode = id := funext Utf8.decode_encode
  rw [delivered_text, List.flatMap_map]
  change (split '\n' (texts.flatMap (Channel.stdout.text ∘ Utf8.encode))).1.filter visible = _
  rw [read, List.flatMap_id]

/-! ## Lines and pieces -/

/-- The events cut no line in two where the pieces read otherwise than the line. -/
def KeepsLines (channel : Channel) (chunks : List Utf8.Bytes) : Prop :=
  ∀ pieces ∈ (cutLines 0x0A chunks).1, pieces.flatMap channel.text = channel.text pieces.flatten

/-- Nothing but white space is after the last line feed. -/
def LastBlank (channel : Channel) (stream : Utf8.Bytes) : Prop :=
  visible (channel.text (split 0x0A stream).2) = false

/-- Every byte of the line is read by itself, and nothing in it is to be taken out: no split of the
line shows. -/
def Uncuttable : Channel → Utf8.Bytes → Prop
  | .stdout, line => Utf8.decode line = Utf8.bytewise line
  | .stderr, line =>
      Utf8.decode line = Utf8.bytewise line ∧
        scrubSecretsInText (Utf8.decode line) = Utf8.decode line

instance (channel : Channel) (chunks : List Utf8.Bytes) : Decidable (KeepsLines channel chunks) :=
  inferInstanceAs (Decidable (∀ pieces ∈ _, _ = _))

instance (channel : Channel) (stream : Utf8.Bytes) : Decidable (LastBlank channel stream) :=
  inferInstanceAs (Decidable (_ = false))

instance (channel : Channel) (line : Utf8.Bytes) : Decidable (Uncuttable channel line) :=
  match channel with
  | .stdout => inferInstanceAs (Decidable (_ = _))
  | .stderr => inferInstanceAs (Decidable (_ ∧ _))

section Delivery

variable {channel : Channel} {chunks : List Utf8.Bytes} {stream : Utf8.Bytes}

theorem lineWise_text (channel : Channel) : LineBuffer.LineWise 0x0A '\n' channel.text := by
  cases channel with
  | stdout => exact Utf8.lineWise_decode
  | stderr => exact lineWise_scrub.comp Utf8.lineWise_decode

theorem delivered_eq (channel : Channel) (chunks : List Utf8.Bytes) :
    delivered channel chunks =
      ((cutLines 0x0A chunks).1.map fun pieces => pieces.flatMap channel.text).filter visible := by
  rw [delivered_text, (lineWise_text channel).split_flatMap]

theorem expectedLines_eq (channel : Channel) (stream : Utf8.Bytes) :
    expectedLines (channel.text stream) =
      ((split 0x0A stream).1.map channel.text).filter visible ++
        [channel.text (split 0x0A stream).2].filter visible := by
  unfold expectedLines
  rw [LineBuffer.splitOn_eq, (lineWise_text channel).split, List.filter_append]

theorem lines_eq (channel : Channel) (joined : chunks.flatten = stream) :
    (split 0x0A stream).1.map channel.text =
      (cutLines 0x0A chunks).1.map fun pieces => channel.text pieces.flatten := by
  rw [← joined, LineBuffer.split_flatten, List.map_map]
  rfl

theorem visible_of_mem {line : List Char} {char : Char} (member : char ∈ line)
    (other : jsSpace char = false) : visible line = true :=
  List.any_eq_true.mpr ⟨char, member, by rw [other]; rfl⟩

/-- Pieces that read otherwise than their line show something. -/
theorem visible_of_cut (channel : Channel) (pieces : List Utf8.Bytes) :
    pieces.flatMap channel.text = channel.text pieces.flatten ∨
      visible (pieces.flatMap channel.text) = true := by
  cases channel with
  | stdout =>
      by_cases cut : Utf8.replacement ∈ pieces.flatMap Utf8.decode
      · exact .inr (visible_of_mem cut (by decide))
      · exact .inl (Utf8.decode_flatten cut).symm
  | stderr =>
      cases shown : visible (pieces.flatMap Channel.stderr.text) with
      | true => exact .inr rfl
      | false =>
          left
          have absent : ∀ char, jsSpace char = false →
              char ∉ pieces.flatMap Channel.stderr.text := by
            intro char other member
            rw [visible_of_mem member other] at shown
            cases shown
          -- a blank text has had nothing taken out of it
          have same : pieces.flatMap Channel.stderr.text = pieces.flatMap Utf8.decode := by
            refine List.flatMap_congr ?_
            intro piece inside
            refine scrub_of_colon_scrub ?_
            intro member
            exact absent ':' (by decide) (List.mem_flatMap.mpr ⟨piece, inside, member⟩)
          rw [same] at absent ⊢
          have whole := Utf8.decode_flatten (absent Utf8.replacement (by decide))
          change _ = scrubSecretsInText (Utf8.decode pieces.flatten)
          rw [whole, scrub_of_colon (absent ':' (by decide))]

theorem keepsLines_of_uncuttable (joined : chunks.flatten = stream)
    (plain : ∀ line ∈ (split 0x0A stream).1, Uncuttable channel line) :
    KeepsLines channel chunks := by
  intro pieces member
  have inside : pieces.flatten ∈ (split 0x0A stream).1 := by
    rw [← joined, LineBuffer.split_flatten]
    exact List.mem_map_of_mem member
  have line := plain _ inside
  cases channel with
  | stdout => exact Utf8.flatMap_decode_of_bytewise line
  | stderr =>
      obtain ⟨single, scrubbed⟩ := line
      have parts : (pieces.map Utf8.decode).flatten = Utf8.decode pieces.flatten :=
        (List.flatMap_def.symm).trans (Utf8.flatMap_decode_of_bytewise single)
      have each := scrub_flatten (pieces.map Utf8.decode) (by rw [parts, scrubbed])
      rw [List.flatMap_map, parts] at each
      exact each.trans scrubbed.symm

/-- A line that is read as its bytes are by themselves cannot be cut. -/
theorem uncuttable_of_bytes {line : Utf8.Bytes}
    (same : line.flatMap (fun byte => channel.text [byte]) = channel.text line) :
    Uncuttable channel line := by
  cases channel with
  | stdout => exact same.symm
  | stderr =>
      have single : line.flatMap (fun byte => Channel.stderr.text [byte]) = Utf8.bytewise line := by
        refine List.flatMap_congr ?_
        intro byte _
        change scrubSecretsInText (Utf8.decode [byte]) = _
        obtain ⟨char, read⟩ := Utf8.decode_single byte
        rw [read, scrub_single]
      rw [single] at same
      have fewer := marks_scrub (Utf8.decode line)
      change _ = scrubSecretsInText (Utf8.decode line) at same
      rw [← same] at fewer
      have bytes := (Utf8.decode_marks line).resolve_right (Nat.not_lt.mpr fewer)
      exact ⟨bytes, same.symm.trans bytes.symm⟩

/-- What is handed on of a stream whose last line is blank. -/
theorem delivered_iff_keepsLines (joined : chunks.flatten = stream)
    (blank : LastBlank channel stream) :
    delivered channel chunks = expectedLines (channel.text stream) ↔ KeepsLines channel chunks := by
  rw [delivered_eq, expectedLines_eq, lines_eq channel joined]
  have nothing : [channel.text (split 0x0A stream).2].filter visible = [] := by
    rw [List.filter_cons_of_neg (by rw [blank]; exact Bool.false_ne_true), List.filter_nil]
  rw [nothing, List.append_nil]
  exact LineBuffer.shown_eq_iff fun pieces _ => visible_of_cut channel pieces

theorem delivered_iff_blank (joined : chunks.flatten = stream) (kept : KeepsLines channel chunks) :
    delivered channel chunks = expectedLines (channel.text stream) ↔ LastBlank channel stream := by
  rw [delivered_eq, expectedLines_eq, lines_eq channel joined, List.map_congr_left kept]
  unfold LastBlank
  rw [List.self_eq_append_right, List.filter_eq_nil_iff]
  simp

/-- The events that hold a byte each. -/
theorem uncuttable_of_keepsLines (kept : KeepsLines channel (stream.map ([·])))
    {line : Utf8.Bytes} (member : line ∈ (split 0x0A stream).1) : Uncuttable channel line := by
  have joined : (stream.map ([·])).flatten = stream := List.flatMap_singleton' stream
  have wise := lineWise_text channel
  have bytes : LineBuffer.LineWise 0x0A '\n' fun stream : Utf8.Bytes =>
      stream.flatMap fun byte => channel.text [byte] := by
    refine .flatMap ?_ ?_
    · have feed := wise.append [] [] List.not_mem_nil
      cases channel <;> exact feed
    · intro byte other
      refine wise.line [byte] ?_
      intro inside
      exact other (List.mem_singleton.mp inside).symm
  have read := wise.split_flatMap (stream.map ([·]))
  rw [List.flatMap_map, bytes.split] at read
  have lines := congrArg Prod.fst read
  rw [List.map_congr_left kept, ← lines_eq channel joined] at lines
  exact uncuttable_of_bytes (List.map_inj_left.mp lines line member)

theorem keepsLines_single (channel : Channel) (stream : Utf8.Bytes) :
    KeepsLines channel [stream] := by
  intro pieces member
  rw [LineBuffer.cutLines_single] at member
  obtain ⟨line, -, rfl⟩ := List.mem_map.mp member
  rw [List.flatMap_singleton, List.flatten_singleton]

/-- **Delivery of lines.** Every split of a stream delivers the lines of its text exactly if the
last line is blank and no line can be cut. A stream whose last line is blank is delivered by the
splits that leave its lines intact, and such a split delivers no other stream. -/
theorem delivered_iff (channel : Channel) (stream : Utf8.Bytes) :
    ((∀ chunks, chunks.flatten = stream →
        delivered channel chunks = expectedLines (channel.text stream)) ↔
      LastBlank channel stream ∧ ∀ line ∈ (split 0x0A stream).1, Uncuttable channel line) ∧
    ∀ chunks, chunks.flatten = stream →
      (LastBlank channel stream →
        (delivered channel chunks = expectedLines (channel.text stream) ↔
          KeepsLines channel chunks)) ∧
      (KeepsLines channel chunks →
        (delivered channel chunks = expectedLines (channel.text stream) ↔
          LastBlank channel stream)) := by
  refine ⟨⟨?_, ?_⟩, ?_⟩
  · intro every
    have single : [stream].flatten = stream := List.flatten_singleton
    have blank := (delivered_iff_blank single (keepsLines_single channel stream)).mp (every _ single)
    have joined : (stream.map ([·])).flatten = stream := List.flatMap_singleton' stream
    refine ⟨blank, ?_⟩
    intro line member
    have kept := (delivered_iff_keepsLines joined blank).mp (every _ joined)
    exact uncuttable_of_keepsLines kept member
  · rintro ⟨blank, uncuttable⟩ chunks joined
    exact (delivered_iff_keepsLines joined blank).mpr (keepsLines_of_uncuttable joined uncuttable)
  · intro chunks joined
    exact ⟨delivered_iff_keepsLines joined, delivered_iff_blank joined⟩

theorem ok_delivered : ∀ chunks, chunks.flatten = [0x6F, 0x6B, 0x0A] →
    delivered .stderr chunks = expectedLines (Channel.stderr.text [0x6F, 0x6B, 0x0A]) :=
  (delivered_iff .stderr [0x6F, 0x6B, 0x0A]).1.mpr
    ⟨by decide +kernel, List.forall_mem_singleton.mpr (by decide +kernel)⟩

/-- A line without a line feed is lost, and a letter that two events share is not read. -/
theorem lines_lost :
    delivered .stdout [[0x61]] = [] ∧ expectedLines (Channel.stdout.text [0x61]) = [['a']] ∧
      delivered .stdout [[0xC3], [0xA9, 0x0A]] = [['\uFFFD', '\uFFFD']] ∧
      delivered .stdout [[0xC3, 0xA9, 0x0A]] = [['é']] ∧
      ¬ ∀ channel chunks, delivered channel chunks =
        expectedLines (channel.text chunks.flatten) := by
  have last : delivered .stdout [[0x61]] = [] := by
    rw [delivered_text]
    decide +kernel
  have whole : expectedLines (Channel.stdout.text [0x61]) = [['a']] := by decide +kernel
  refine ⟨last, whole, ?_, ?_, ?_⟩
  · rw [delivered_text]
    decide +kernel
  · rw [delivered_text]
    decide +kernel
  · intro every
    have lost := every .stdout [[0x61]]
    rw [last] at lost
    exact absurd (lost.trans whole) (by decide)

end Delivery

end AmberBackup
