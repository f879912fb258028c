import StepScript.CommandLine.Program
import StepScript.Proofs.Action.Bounds
import StepScript.Proofs.Action.Lookups
import StepScript.Proofs.Script.RoundTrip
import StepScript.Proofs.Stream.Agreement

/-!
# What the program prints

A script that is run leaves a line for each result that the collected run has, and the program fails
exactly if that run does. Each line is one JSON object, whatever the texts in it.
-/

namespace StepScript

/-! ## Lines -/

namespace Text

theorem pieces_append {separator : Char} {line : List Char} (h : separator ∉ line)
    (rest : List Char) :
    pieces separator (line ++ separator :: rest) = line :: pieces separator rest := by
  induction line with
  | nil => rw [List.nil_append, pieces, if_pos rfl]
  | cons c line ih =>
    rw [List.mem_cons, not_or] at h
    rw [List.cons_append, pieces, if_neg (Ne.symm h.1), ih h.2]

/-- Lines without line breaks are told apart again, and nothing stands behind the last one. -/
theorem pieces_lines {lines : List (List Char)} (h : ∀ line ∈ lines, '\n' ∉ line) :
    pieces '\n' (lines.flatMap fun line => line ++ ['\n']) = lines ++ [[]] := by
  induction lines with
  | nil => rfl
  | cons line lines ih =>
    obtain ⟨hline, hlines⟩ := List.forall_mem_cons.1 h
    rw [List.flatMap_cons, List.append_assoc, List.singleton_append, pieces_append hline,
      ih hlines, List.cons_append]

end Text

/-! ## Runs -/

section

variable {B : Backend}

end

namespace Stream

variable {B : Backend} {run : Run B} {outcome : Outcome B} {state : State B}

end Stream

namespace CommandLine

/-- The lines that are printed. The steps of the results began and ended at some times. -/
def Report.rendered (times : Nat → Timestamp × Timestamp) (report : Report) : List String :=
  report.lines.mapIdx fun i line => line.render (times i).1 (times i).2

def Report.output (times : Nat → Timestamp × Timestamp) (report : Report) : List Char :=
  ((report.rendered times).map String.toList).flatMap fun line => line ++ ['\n']

/-- A report prints the outcome of the run of a script with some name. -/
structure Report.Prints (report : Report) (name : String) (outcome : Outcome .absent) : Prop where
  /-- There is a line for each result, in their order. -/
  lines : report.lines = outcome.results.toList.map .result
  /-- A step that failed is the last of them. -/
  failed : ∀ error, outcome.error = some error → error.isFailure = true →
    ∃ record, report.lines.getLast? = some (.result record) ∧ record.success = false
  /-- Each line is an object, and there are no control characters in it. -/
  objects : ∀ times, ∀ line ∈ report.rendered times,
    (∃ members, Json.parse line = .ok (.object members)) ∧ ∀ c ∈ line.toList, ' ' ≤ c
  /-- Nothing but the lines is printed. -/
  output : ∀ times, Text.pieces '\n' (report.output times) =
    (report.rendered times).map String.toList ++ [[]]
  failure : report.failure = outcome.error.map (.failedScript name)
  /-- The program fails exactly if the run has an error. -/
  exitCode : report.exitCode ≠ 0 ↔ outcome.error.isSome

theorem Report.mem_rendered {report : Report} {times : Nat → Timestamp × Timestamp} {line : String}
    (h : line ∈ report.rendered times) :
    ∃ entry ∈ report.lines, ∃ began ended, line = entry.render began ended := by
  obtain ⟨i, hi, hline⟩ := List.mem_mapIdx.1 h
  exact ⟨_, List.getElem_mem hi, _, _, hline.symm⟩

/-- The line of a bounded result is an object without control characters. -/
theorem OutputLine.render_result {record : ActionResult} (h : record.IsBounded)
    (began ended : Timestamp) :
    (∃ members, Json.parse ((OutputLine.result record).render began ended) =
      .ok (.object members)) ∧
    ∀ c ∈ ((OutputLine.result record).render began ended).toList, ' ' ≤ c := by
  refine ⟨TimedResult.exists_parse_render h, fun c hc => ?_⟩
  rw [OutputLine.render, Json.render, String.toList_ofList] at hc
  exact Json.le_of_mem_chars c hc

theorem Report.exitCode_ne_zero (report : Report) :
    report.exitCode ≠ 0 ↔ report.failure.isSome := by
  unfold Report.exitCode
  split <;> simp [*]

/-- The report of the results of an outcome, if they are bounded. -/
theorem Report.prints {report : Report} {name : String} {outcome : Outcome .absent}
    (hlines : report.lines = outcome.results.toList.map .result)
    (hfailure : report.failure = outcome.error.map (.failedScript name))
    (hbounded : ∀ result ∈ outcome.results, result.IsBounded)
    (hfailed : ∀ error, outcome.error = some error → error.isFailure = true →
      ∃ record, outcome.results.back? = some record ∧ record.success = false) :
    report.Prints name outcome := by
  have hobjects : ∀ times, ∀ line ∈ report.rendered times,
      (∃ members, Json.parse line = .ok (.object members)) ∧ ∀ c ∈ line.toList, ' ' ≤ c := by
    intro times line hline
    obtain ⟨entry, hentry, began, ended, rfl⟩ := report.mem_rendered hline
    rw [hlines] at hentry
    obtain ⟨record, hrecord, rfl⟩ := List.mem_map.1 hentry
    exact OutputLine.render_result (hbounded record (Array.mem_toList_iff.1 hrecord)) began ended
  refine ⟨hlines, fun error herror hisFailure => ?_, hobjects, fun times => ?_, hfailure, ?_⟩
  · obtain ⟨record, hrecord, hsuccess⟩ := hfailed error herror hisFailure
    refine ⟨record, ?_, hsuccess⟩
    rw [hlines, List.getLast?_map, Array.getLast?_toList, hrecord]
    rfl
  · refine Text.pieces_lines fun line hline => ?_
    obtain ⟨text, htext, rfl⟩ := List.mem_map.1 hline
    exact fun hbreak => absurd ((hobjects times text htext).2 _ hbreak) (by decide)
  · rw [report.exitCode_ne_zero, hfailure, Option.isSome_map]

/-! ## Programs -/

section

variable {files : Files} {environment : Environment} {invocation : Invocation} {path : String}
  {strict : Bool} {pollMillis : Option Nat}
  (hcommand : invocation.command = .run path strict pollMillis)

include hcommand

end

end CommandLine

end StepScript
