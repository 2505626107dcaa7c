import AmberBackup.GoAgent.AcceptedResults
import AmberBackup.Restic.LineDelivery

/-! # The output of a check on the agent

The agent reads both streams of restic line by line. A scanner gives up at a line that does not
fit its buffer, and a line of the standard output that decodes as a JSON object is no line of the
log. Damage is what the log reports, so that a report counts exactly if it is on a line the
agent keeps (`damagedLog_iff`).
-/

namespace AmberBackup.GoAgent

/-! ## Scanners -/

/-- `bufio.MaxScanTokenSize`. -/
def maxScanTokenSize : Nat := 64 * 1024

/-- The size that the buffer of the standard output may grow to. -/
def stdoutTokenSize : Nat := 8 * 1024 * 1024

def byteLength (line : List Char) : Nat := (line.map Char.utf8Size).sum

/-- `dropCR` of `bufio`. -/
def dropCR (line : List Char) : List Char :=
  if line.getLast? = some '\r' then line.dropLast else line

/-- The lines of a text; nothing after the last line feed is no line. -/
def rawLines (text : List Char) : List (List Char) :=
  let parts := text.splitOn '\n'
  if parts.getLast? = some [] then parts.dropLast else parts

/-- The last line is read without a line feed too. -/
theorem rawLines_visible (text : List Char) :
    (rawLines text).filter visible = expectedLines text := by
  unfold rawLines expectedLines
  simp only
  split
  case isFalse => rfl
  case isTrue ending =>
    obtain ⟨lines, last⟩ := List.getLast?_eq_some_iff.mp ending
    have blank : visible [] = false := rfl
    rw [last, List.dropLast_concat, List.filter_append, List.filter_cons_of_neg (by simp [blank]),
      List.filter_nil, List.append_nil]

/-- The lines a scanner reads. It stops at the first one that does not fit its buffer together
with the line feed. -/
def scanLines (tokenSize : Nat) (text : List Char) : List (List Char) :=
  ((rawLines text).takeWhile fun line => byteLength line < tokenSize).map dropCR

example : scanLines 5 "ab\r\n\ncdef\nghijk\nlm".toList = ["ab".toList, [], "cdef".toList] := by
  decide +kernel

/-- The lines that `run` logs, the standard output first. `unmarshals` are the lines that
`json.Unmarshal` takes as an object. -/
def loggedLines (unmarshals : List Char → Bool) (process : ResticProcess) : List (List Char) :=
  ((scanLines stdoutTokenSize process.stdout.flatten).filter fun line => !unmarshals line) ++
    scanLines maxScanTokenSize process.stderr.flatten

/-! ## Searching the log -/

/-- A report in the letters that `strings.ToLower` makes one of. -/
def ReportsDamage (line : List Char) : Prop := Occurs toLower damagePhrase line

instance (line : List Char) : Decidable (ReportsDamage line) :=
  inferInstanceAs (Decidable (Occurs _ _ line))

theorem reportsDamage_of_letters {line : List Char} (reports : AmberBackup.ReportsDamage line) :
    ReportsDamage line := by
  refine Occurs.of_agreeing ?_ reports
  intro char needed
  unfold toLower
  by_cases dotted : char = 'İ'
  · rw [dotted] at needed
    exact absurd needed (by decide)
  · by_cases kelvin : char = 'K'
    · rw [kelvin] at needed
      exact absurd needed (by decide)
    · rw [if_neg dotted, if_neg kelvin]

theorem reportsDamage_dropCR {line : List Char} :
    ReportsDamage (dropCR line) ↔ ReportsDamage line := by
  unfold dropCR
  split
  case isFalse => rfl
  case isTrue ending =>
    obtain ⟨start, rfl⟩ := List.getLast?_eq_some_iff.mp ending
    rw [List.dropLast_concat]
    exact (Occurs.concat_iff (by decide)).symm

theorem isDamagedCheckOutput_iff (lines : List String) :
    isDamagedCheckOutput (logText lines) = true ↔ ∃ line ∈ lines, ReportsDamage line.toList := by
  unfold isDamagedCheckOutput
  rw [decide_eq_true_eq]
  change ReportsDamage (logText lines).toList ↔ _
  induction lines with
  | nil =>
      have nothing : ¬ ReportsDamage (logText []).toList := by decide
      exact iff_of_false nothing (by rintro ⟨line, member, -⟩; cases member)
  | cons first rest ih =>
      have split : (logText (first :: rest)).toList =
          first.toList ++ '\n' :: (logText rest).toList := by
        change (first ++ "\n" ++ logText rest).toList = _
        simp
      rw [split, ReportsDamage, Occurs.separated_iff (by decide)]
      change ReportsDamage first.toList ∨ ReportsDamage (logText rest).toList ↔ _
      rw [ih]
      simp only [List.mem_cons, exists_eq_or_imp]

/-- The log is damaged exactly if a line the agent keeps reports damage. -/
theorem damagedLog_iff {unmarshals : List Char → Bool} {process : ResticProcess}
    {lines : List String}
    (logged : lines.Perm ((loggedLines unmarshals process).map String.ofList)) :
    isDamagedCheckOutput (logText lines) = true ↔
      ∃ line ∈ loggedLines unmarshals process, ReportsDamage line := by
  rw [isDamagedCheckOutput_iff]
  constructor
  · rintro ⟨line, member, reports⟩
    obtain ⟨kept, listed, rfl⟩ := List.mem_map.mp (logged.mem_iff.mp member)
    exact ⟨kept, listed, by rwa [String.toList_ofList] at reports⟩
  · rintro ⟨kept, listed, reports⟩
    refine ⟨_, logged.mem_iff.mpr (List.mem_map_of_mem listed), ?_⟩
    rwa [String.toList_ofList]

/-- A line that a scanner reads is on the stream it reads. -/
theorem mem_splitOn_of_scanned {tokenSize : Nat} {text line : List Char}
    (scanned : line ∈ scanLines tokenSize text) :
    ∃ part ∈ text.splitOn '\n', line = dropCR part := by
  obtain ⟨part, kept, rfl⟩ := List.mem_map.mp scanned
  refine ⟨part, ?_, rfl⟩
  have raw := (List.takeWhile_sublist _).subset kept
  unfold rawLines at raw
  dsimp only at raw
  split at raw
  · exact List.mem_of_mem_dropLast raw
  · exact raw

/-- The first part of a text is its first line. -/
theorem rawLines_cons {first : List Char} (line : '\n' ∉ first) (rest : List Char) :
    ∃ later, rawLines (first ++ '\n' :: rest) = first :: later := by
  unfold rawLines
  rw [List.splitOn_append_cons_self_of_not_mem line]
  dsimp only
  split
  · exact ⟨_, List.dropLast_cons_of_ne_nil (List.splitOn_ne_nil _ _)⟩
  · exact ⟨_, rfl⟩

/-- A scanner reads nothing of a stream whose first line does not fit its buffer. -/
theorem scanLines_long {tokenSize : Nat} {first : List Char} (line : '\n' ∉ first)
    (long : tokenSize ≤ byteLength first) (rest : List Char) :
    scanLines tokenSize (first ++ '\n' :: rest) = [] := by
  obtain ⟨later, raw⟩ := rawLines_cons line rest
  unfold scanLines
  rw [raw, List.takeWhile_cons_of_neg, List.map_nil]
  rw [decide_eq_true_eq]
  exact Nat.not_lt.mpr long

end AmberBackup.GoAgent
