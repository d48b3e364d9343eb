import ScriptAudit.Proofs.Json.RoundTrip
import ScriptAudit.Proofs.Report.Emission

/-!
# Diagnostics as lines of JSON

A reporter of JSON lines writes one line for each diagnostic. No line is empty and none holds a line
end of its own, so the text falls apart at its line ends into the lines and an empty tail. A reader
of JSON makes the object of the diagnostic from each line again, and its members are the fields of
the diagnostic, each with its own value.
-/

set_option autoImplicit false

namespace ScriptAudit

/-- What a reader of JSON lines learns of a diagnostic. The path is known by its text. -/
structure Record where
  ruleId : String
  severity : Severity
  message : String
  line : Nat
  column : Option Nat
  path : Option String
  deriving DecidableEq

/-- What a diagnostic says. -/
def Diagnostic.record (d : Diagnostic) : Record :=
  { ruleId := d.ruleId, severity := d.severity, message := d.message, line := d.line,
    column := d.column, path := d.path.map Path.toText }

namespace Json

/-- Reads a value that may be `null`. -/
def optional? {α : Type} (read : Json → Option α) : Json → Option (Option α)
  | null => some none
  | v => (read v).map some

/-- Reads the members of an object by their names. -/
def record? (v : Json) : Option Record := do
  let ruleId ← v.textOf? "rule_id"
  let severity ← (v.textOf? "severity").bind Severity.ofName?
  let message ← v.textOf? "message"
  let line ← (v.member? "line").bind nat?
  let column ← (v.member? "column").bind (optional? nat?)
  let path ← (v.member? "path").bind (optional? text?)
  some { ruleId, severity, message, line, column, path }

/-- A number is read back. -/
theorem nat?_nat (n : Nat) : (nat n).nat? = some n := by
  simp [nat, nat?]

/-- A value that may be missing is read back if it is not written as null. -/
theorem optional?_ofOption {α β : Type} {write : α → Json} {read : Json → Option β} {f : α → β}
    (hread : ∀ a, read (write a) = some (f a)) (hnull : ∀ a, write a ≠ null) (o : Option α) :
    optional? read (ofOption write o) = some (o.map f) := by
  cases o with
  | none => rfl
  | some a =>
    rw [ofOption, optional?, hread]
    · rfl
    · exact hnull a

end Json

/-- A severity is read back from its name. -/
theorem Severity.ofName?_name (s : Severity) : Severity.ofName? s.name = some s := by
  cases s <;> decide

/-- The object of a diagnostic holds all that the diagnostic says. -/
theorem Diagnostic.record?_toJson (d : Diagnostic) : d.toJson.record? = some d.record := by
  have hcolumn : Json.optional? Json.nat? (Json.ofOption Json.nat d.column) =
      some (d.column.map id) :=
    Json.optional?_ofOption Json.nat?_nat (fun _ => nofun) d.column
  have htext : ∀ p : Path, Json.text? (.string p.toText) = some p.toText := fun _ => rfl
  have hpath : Json.optional? Json.text? (Json.ofOption (fun p => .string p.toText) d.path) =
      some (d.path.map Path.toText) :=
    Json.optional?_ofOption htext (fun _ => nofun) d.path
  simp [toJson, Json.record?, Json.textOf?, Json.member?, Json.text?, Field.name, hcolumn, hpath,
    Json.nat?_nat, Severity.ofName?_name, record]

namespace Report.Reporter

/-- Lines with their line ends are the pieces of their text, in front of an empty tail. -/
theorem splitOn_flatMap {lines : List (List Char)} (hlines : ∀ line ∈ lines, '\n' ∉ line) :
    (lines.flatMap (· ++ ['\n'])).splitOn '\n' = lines ++ [[]] := by
  have hjoin : lines.flatMap (· ++ ['\n']) = ['\n'].intercalate (lines ++ [[]]) := by
    induction lines with
    | nil => rfl
    | cons line lines ih =>
      obtain ⟨next, rest, hnext⟩ : ∃ next rest, lines ++ [[]] = next :: rest :=
        List.exists_cons_of_ne_nil (by simp)
      rw [List.flatMap_cons, ih (List.forall_mem_cons.mp hlines).2, List.cons_append, hnext,
        List.intercalate_cons_cons]
  rw [hjoin]
  apply List.splitOn_intercalate
  · intro line hline
    rcases List.mem_append.mp hline with hline | hline
    · exact hlines line hline
    · rw [List.mem_singleton.mp hline]
      exact List.not_mem_nil
  · simp

/-- A fresh reporter of JSON lines takes all diagnostics and writes a line for each of them. -/
theorem toList_text_emitAll_jsonLines (ds : List Diagnostic) :
    (emitAll ({ format := .jsonLines }, 0) ds).2 = none ∧
      (emitAll ({ format := .jsonLines }, 0) ds).1.1.sink.text.toList =
        (ds.map fun d => d.toJson.render.toList).flatMap (· ++ ['\n']) := by
  have hreliable : Reliable { format := .jsonLines } ds :=
    reliable_of_unlimited (by simp) rfl rfl ds
  have hwritten : written? { format := .jsonLines } =
      fun d : Diagnostic => some (d.toJson.render ++ "\n") := rfl
  rw [emitAll_of_reliable hreliable]
  refine ⟨rfl, ?_⟩
  simp [after, Sink.text, hwritten, List.flatMap_def, Function.comp_def]

/-- **JSON lines lose nothing.** A fresh reporter takes any diagnostics. Its text, split at the line
ends, is one piece for each diagnostic and an empty tail, and a reader of JSON learns from each
piece what its diagnostic says. -/
theorem records_of_jsonLines (ds : List Diagnostic) :
    ∃ lines : List String,
      (emitAll ({ format := .jsonLines }, 0) ds).2 = none ∧
      (emitAll ({ format := .jsonLines }, 0) ds).1.1.sink.text.toList.splitOn '\n' =
        lines.map String.toList ++ [[]] ∧
      lines.length = ds.length ∧
      (∀ line ∈ lines, line ≠ "") ∧
      lines.map (fun line => (Json.read? line).bind Json.record?) =
        ds.map fun d => some d.record := by
  obtain ⟨hfault, htext⟩ := toList_text_emitAll_jsonLines ds
  refine ⟨ds.map fun d => d.toJson.render, hfault, ?_, List.length_map _, ?_, ?_⟩
  · rw [htext, splitOn_flatMap, List.map_map]
    · rfl
    · -- a line end in a text would have been escaped
      intro line hline hend
      obtain ⟨d, -, rfl⟩ := List.mem_map.mp hline
      exact absurd (Json.inline_render d.toJson '\n' hend) (by decide)
  · intro line hline hempty
    obtain ⟨d, -, rfl⟩ := List.mem_map.mp hline
    obtain ⟨c, cs, hcs, -⟩ := Json.exists_render_eq_cons d.toJson
    rw [hempty] at hcs
    exact List.cons_ne_nil c cs hcs.symm
  · rw [List.map_map]
    apply List.map_congr_left
    intro d _
    rw [Function.comp_apply, Json.read?_render, Option.bind_some, d.record?_toJson]

end Report.Reporter

end ScriptAudit
