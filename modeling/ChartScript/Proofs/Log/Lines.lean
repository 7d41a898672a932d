import ChartScript.Log.Journal
import ChartScript.Proofs.Data.Reading
import ChartScript.Proofs.Scope.Lookup

/-!
# The log is one object per line

Whatever is logged, a journal gains one line for each entry that passes, in the order in which the
entries were handed over (`Journal.log_lines`). A line is a JSON object that holds the entry: its
tokens are those of the entry, a newline comes behind it and none stands in it. So no text that is
logged ends a line or begins one, and who cuts the log at its newlines has the entries again.

Which entries pass is decided by the settings that are in force when an entry is handed over. These
do not depend on what is logged, so they are followed by themselves (`emissions`).
-/

set_option autoImplicit false

namespace ChartScript

/-! ## What can be written -/

namespace Datum

theorem areWritable_iff (items : List Datum) :
    areWritable items = true ↔ ∀ d ∈ items, d.isWritable = true := by
  induction items with
  | nil => simp [areWritable]
  | cons d items ih => simp [areWritable, ih]

theorem fieldsAreWritable_iff (fields : List (Bytes × Datum)) :
    fieldsAreWritable fields = true ↔ ∀ field ∈ fields, field.2.isWritable = true := by
  induction fields with
  | nil => simp [fieldsAreWritable]
  | cons field fields ih => simp [fieldsAreWritable, ih]

theorem fieldsAreWritable_append (fields fields' : List (Bytes × Datum)) :
    fieldsAreWritable (fields ++ fields') =
      (fieldsAreWritable fields && fieldsAreWritable fields') := by
  rw [Bool.eq_iff_iff, Bool.and_eq_true]
  simp only [fieldsAreWritable_iff, List.forall_mem_append]

theorem isWritable_ofMap (fields : List (Bytes × Datum)) :
    (ofMap fields).isWritable = fieldsAreWritable fields := by
  rw [ofMap, isWritable, Bool.eq_iff_iff, fieldsAreWritable_iff, fieldsAreWritable_iff]
  exact ⟨fun h field hfield => h field (List.mem_mergeSort.2 hfield),
    fun h field hfield => h field (List.mem_mergeSort.1 hfield)⟩

/-- Texts, and lists and objects of them. -/
inductive IsTextual : Datum → Prop where
  | text (t : Bytes) : IsTextual (.text t)
  | list {items : List Datum} (h : ∀ d ∈ items, IsTextual d) : IsTextual (.list items)
  | object {fields : List (Bytes × Datum)} (h : ∀ field ∈ fields, IsTextual field.2) :
      IsTextual (.object fields)

theorem IsTextual.isWritable {d : Datum} (h : d.IsTextual) : d.isWritable = true := by
  induction h with
  | text t => rfl
  | list h ih =>
    rw [Datum.isWritable, areWritable_iff]
    exact ih
  | object h ih =>
    rw [Datum.isWritable, fieldsAreWritable_iff]
    exact ih

end Datum

namespace Entry

/-- Whether the variables and tags of an entry can be written. -/
def isWritable (e : Entry) : Bool :=
  Datum.fieldsAreWritable e.vars && Datum.fieldsAreWritable e.tags

theorem isWritable_datum (e : Entry) (now : Bytes) : (e.datum now).isWritable = e.isWritable := by
  have hoptional : ∀ (present : Bool) (name : Bytes) (d : Datum),
      Datum.fieldsAreWritable (if present then [(name, d)] else []) =
        (!present || d.isWritable) := by
    intro present name d
    cases present with
    | false => rfl
    | true => exact Bool.and_true _
  -- A map that is left out is empty, and nothing of it has to be written.
  have hmap : ∀ fields : List (Bytes × Datum),
      (!(!fields.isEmpty) || (Datum.ofMap fields).isWritable) = Datum.fieldsAreWritable fields := by
    intro fields
    cases fields with
    | nil => rfl
    | cons field fields => exact Datum.isWritable_ofMap _
  rw [datum, Datum.isWritable]
  simp only [Datum.fieldsAreWritable_append, hoptional, hmap]
  rw [show (Datum.text e.runId).isWritable = true from rfl, Bool.or_true, Bool.and_true]
  rfl

theorem line_eq (e : Entry) (now : Bytes) :
    e.line now = if e.isWritable then (e.datum now).write ++ Bytes.newline else [] := by
  rw [line, isWritable_datum]

/-- Nothing but texts is logged. -/
structure IsTextual (e : Entry) : Prop where
  vars : ∀ field ∈ e.vars, field.2.IsTextual
  tags : ∀ field ∈ e.tags, field.2.IsTextual

theorem IsTextual.isWritable {e : Entry} (h : e.IsTextual) : e.isWritable = true := by
  rw [Entry.isWritable, Bool.and_eq_true, Datum.fieldsAreWritable_iff, Datum.fieldsAreWritable_iff]
  exact ⟨fun field hfield => (h.vars field hfield).isWritable,
    fun field hfield => (h.tags field hfield).isWritable⟩

end Entry

/-! ## What passes -/

theorem Level.ofName?_name (level : Level) : ofName? level.name = some level := by
  cases level <;> decide

namespace Entry

/-- The standard level that an entry counts as: `INFO` if it has none, `DEBUG` if it is unknown. -/
def importance (e : Entry) : Level :=
  if e.level.isEmpty then .info else (Level.ofName? e.level).getD .debug

/-- An entry with a level in any case. -/
def levelled (e : Entry) : Entry :=
  { e with level := if e.level.isEmpty then (Level.info.name : Bytes) else e.level }

end Entry

namespace Logger

/-- The standard level that the minimum counts as: `INFO` if it is unknown. -/
def floor (l : Logger) : Level := (Level.ofName? l.minLevel).getD .info

/-- An entry with what a logger fills in. -/
def filled (l : Logger) (e : Entry) : Entry :=
  { e with
    component := if e.component.isEmpty then l.component else e.component
    logType := if e.logType.isEmpty then l.defaultType else e.logType
    runId := if e.runId.isEmpty then l.runId else e.runId }

theorem complete?_eq (l : Logger) (e : Entry) :
    l.complete? e = if l.admits e.levelled.level then some (l.filled e.levelled) else none := rfl

theorem admits_levelled (l : Logger) (e : Entry) :
    l.admits e.levelled.level = decide (l.floor.rank ≤ e.importance.rank) := by
  unfold admits Entry.levelled Entry.importance
  dsimp only
  split
  · rw [Level.ofName?_name]
    rfl
  · cases Level.ofName? e.level <;> rfl

/-- A minimum that is set by name counts as the level that the name is read as. -/
theorem floor_setMinLevel (l : Logger) (name : Bytes) :
    (l.setMinLevel name).floor = Level.parse name := by
  rw [floor, setMinLevel, Level.ofName?_name]
  rfl

end Logger

/-! ## What is handed over -/

/-- A change to the settings of a logger. The level is set by its name in any spelling, or as it
is. -/
inductive Setting where
  | minLevel (name : Bytes)
  | exactLevel (name : Bytes)
  | logType (t : Bytes)
  | runId (id : Bytes)
  | echo (on : Bool)

/-- What is done with a journal. -/
inductive LogStep where
  | emit (i : Nat) (e : Entry) (now : Bytes)
  | set (i : Nat) (setting : Setting)
  | derive (i : Nat) (component : Bytes)

/-- An entry that is handed to a logger, with the settings in force and the time. -/
structure Emission where
  logger : Logger
  entry : Entry
  now : Bytes

def Setting.apply : Setting → Logger → Logger
  | .minLevel name, l => l.setMinLevel name
  | .exactLevel name, l => { l with minLevel := name }
  | .logType t, l => { l with defaultType := t }
  | .runId id, l => { l with runId := id }
  | .echo on, l => { l with echoes := on }

namespace LogStep

variable (loggers : List (Option Logger))

/-- The loggers after a step. -/
def settle : LogStep → List (Option Logger)
  | .emit .. => loggers
  | .set i setting => loggers.modify i (Option.map setting.apply)
  | .derive i component => loggers ++ [loggers[i]?.join.map (·.withComponent component)]

/-- What a step hands over, if there is a logger to take it. -/
def emission? : LogStep → Option Emission
  | .emit i e now => loggers[i]?.join.map fun l => ⟨l, e, now⟩
  | _ => none

end LogStep

/-- All that is handed over, in order. -/
def emissions (loggers : List (Option Logger)) : List LogStep → List Emission
  | [] => []
  | step :: steps => (step.emission? loggers).toList ++ emissions (step.settle loggers) steps

/-! ### The level in force -/

/-- The minimum level that a setting sets. -/
def Setting.level? : Setting → Option Level
  | .minLevel name => some (.parse name)
  | .exactLevel name => some ((Level.ofName? name).getD .info)
  | .logType _ | .runId _ | .echo _ => none

theorem Setting.floor_apply (setting : Setting) (l : Logger) :
    (setting.apply l).floor = setting.level?.getD l.floor := by
  cases setting with
  | minLevel name => exact l.floor_setMinLevel name
  | exactLevel name => rfl
  | logType t => rfl
  | runId id => rfl
  | echo on => rfl

namespace LogStep

variable (levels : List (Option Level))

/-- The minimum levels after a step: one that is set stays until the next one is, and a derived logger
begins with that of its origin. -/
def settleLevels : LogStep → List (Option Level)
  | .emit .. => levels
  | .set i setting => levels.modify i (Option.map fun level => setting.level?.getD level)
  | .derive i _ => levels ++ [levels[i]?.join]

/-- The minimum level that holds for what a step hands over. -/
def level? : LogStep → Option Level
  | .emit i _ _ => levels[i]?.join
  | _ => none

variable (loggers : List (Option Logger))

theorem floors_settle (step : LogStep) :
    (step.settle loggers).map (Option.map Logger.floor) =
      step.settleLevels (loggers.map (Option.map Logger.floor)) := by
  cases step with
  | emit i e now => rfl
  | set i setting =>
    refine List.ext_getElem? fun k => ?_
    rw [settle, settleLevels, List.getElem?_map, List.getElem?_modify, List.getElem?_modify,
      List.getElem?_map]
    rcases loggers[k]? with _ | _ | l
    · rfl
    · by_cases hk : i = k <;> simp [hk]
    · by_cases hk : i = k <;> simp [hk, setting.floor_apply]
  | derive i component =>
    rw [settle, settleLevels, List.map_append, List.getElem?_map]
    rcases loggers[i]? with _ | _ | l <;> rfl

theorem floor_emission? (step : LogStep) :
    (step.emission? loggers).map (fun x => x.logger.floor) =
      step.level? (loggers.map (Option.map Logger.floor)) := by
  cases step with
  | emit i e now =>
    rw [emission?, level?, List.getElem?_map]
    rcases loggers[i]? with _ | _ | l <;> rfl
  | set i setting => rfl
  | derive i component => rfl

end LogStep

/-- The minimum levels in force when something is handed over, in order. -/
def levelsInForce (levels : List (Option Level)) : List LogStep → List Level
  | [] => []
  | step :: steps => (step.level? levels).toList ++ levelsInForce (step.settleLevels levels) steps

/-- The level by which an entry is judged is the one that was set last. -/
theorem floors_emissions (loggers : List (Option Logger)) (steps : List LogStep) :
    (emissions loggers steps).map (fun x => x.logger.floor) =
      levelsInForce (loggers.map (Option.map Logger.floor)) steps := by
  induction steps generalizing loggers with
  | nil => rfl
  | cons step steps ih =>
    rw [emissions, levelsInForce, List.map_append, ih, LogStep.floors_settle,
      ← LogStep.floor_emission?, Option.toList_map]

namespace Emission

/-- Whether an entry passes the minimum level in force. -/
def passes (x : Emission) : Bool := x.logger.floor.rank ≤ x.entry.importance.rank

/-- Whether an entry passes and can be written. -/
def isLogged (x : Emission) : Bool := x.passes && x.entry.isWritable

/-- The entry with what the logger fills in. -/
def completed (x : Emission) : Entry := x.logger.filled x.entry.levelled

/-- The entry as JSON. -/
def text (x : Emission) : Bytes := (x.completed.datum x.now).write

def line (x : Emission) : Bytes := x.text ++ Bytes.newline

/-- The entry is one object, on one line. -/
structure WellFormed (x : Emission) : Prop where
  framed : ∃ body : Bytes, x.text = "\x7b" ++ body ++ "\x7d"
  visible : ∀ b ∈ x.text, 0x20 ≤ b.toNat
  tokens : JsonToken.all? x.text = some (x.completed.datum x.now).tokens

/-- Of texts, whatever they are, the levels alone decide. -/
theorem isLogged_of_isTextual {x : Emission} (h : x.entry.IsTextual) : x.isLogged = x.passes := by
  rw [isLogged, h.isWritable, Bool.and_true]

theorem wellFormed {x : Emission} (h : x.isLogged = true) : x.WellFormed := by
  have hwritable : (x.completed.datum x.now).isWritable = true := by
    rw [Entry.isWritable_datum]
    exact (Bool.and_eq_true_iff.1 h).2
  have hreads := Datum.write_reads _ hwritable
  exact ⟨⟨_, rfl⟩, hreads.visible, hreads.all?_eq⟩

theorem WellFormed.newline_notMem {x : Emission} (h : x.WellFormed) : 10 ∉ x.text :=
  fun hmem => absurd (h.visible 10 hmem) (by decide)

/-- Lines are told apart by their newlines. -/
theorem splitOn_lines {xs : List Emission} (h : ∀ x ∈ xs, x.WellFormed) :
    Bytes.splitOn 10 (xs.flatMap line) = xs.map text ++ [[]] := by
  induction xs with
  | nil => rfl
  | cons x xs ih =>
    rw [List.forall_mem_cons] at h
    rw [List.flatMap_cons, line, Bytes.newline, List.append_assoc, List.singleton_append,
      Bytes.splitOn_append, Bytes.splitOn_of_not_mem h.1.newline_notMem, ih h.2]
    rfl

/-- What a logger makes of an entry. -/
theorem complete?_emission (x : Emission) :
    (x.logger.complete? x.entry).elim [] (·.line x.now) = ([x].filter isLogged).flatMap line := by
  rw [Logger.complete?_eq, Logger.admits_levelled, ← passes, List.filter_cons, isLogged]
  cases x.passes with
  | false => rfl
  | true =>
    refine (x.completed.line_eq x.now).trans ?_
    rw [show x.completed.isWritable = x.entry.isWritable from rfl]
    cases x.entry.isWritable with
    | false => rfl
    | true => exact (List.append_nil x.line).symm

end Emission

/-! ## What a journal holds -/

theorem Files.node?_append {f : Files} {location content : Bytes}
    (h : f.node? location = some (.file content)) (more : Bytes) :
    (f.append location more).node? location = some (.file (content ++ more)) := by
  rw [append, h]
  unfold node? at h ⊢
  split at h
  · cases h
  · next hbelow =>
    rw [if_neg hbelow]
    exact (Table.get?_insert _ _ _ _).trans (if_pos rfl)

namespace Journal

/-- What the sink of a journal holds: what the writer got, or what is in the file. -/
def held? (j : Journal) : Option Bytes :=
  match j.sink with
  | .nowhere => none
  | .writer => some j.written
  | .file location =>
    match j.files.node? location with
    | some (.file content) => some content
    | _ => none

def step (j : Journal) : LogStep → Journal
  | .emit i e now => j.emit i e now
  | .set i setting => j.configure i setting.apply
  | .derive i component => j.derive i component

def run (j : Journal) (steps : List LogStep) : Journal := steps.foldl step j

variable {j : Journal} {held : Bytes}

theorem loggers_step (j : Journal) (s : LogStep) : (j.step s).loggers = s.settle j.loggers := by
  cases s with
  | emit i e now =>
    show (j.emit i e now).loggers = j.loggers
    unfold emit
    split
    · rfl
    · split <;> rfl
  | set i setting => rfl
  | derive i component => rfl

theorem held?_write (h : j.held? = some held) (echoes : Bool) (e : Entry) (now : Bytes) :
    (j.write echoes e now).held? = some (held ++ e.line now) := by
  unfold held? at h
  cases hsink : j.sink with
  | nowhere =>
    rw [hsink] at h
    cases h
  | writer =>
    rw [hsink] at h
    obtain rfl := Option.some.inj h
    unfold write held?
    dsimp only
    rw [hsink]
    rfl
  | file location =>
    -- A directory or a device at the location would hold nothing.
    have hnode : j.files.node? location = some (.file held) := by
      rw [hsink] at h
      dsimp only at h
      split at h
      · next content hcontent => rw [hcontent, Option.some.inj h]
      · cases h
    unfold write held?
    dsimp only
    rw [hsink]
    dsimp only [Sink.take]
    rw [Files.node?_append hnode]

theorem held?_emit (h : j.held? = some held) (i : Nat) (e : Entry) (now : Bytes) :
    (j.emit i e now).held? = some (held ++ (j.logger? i).elim [] fun l =>
      (l.complete? e).elim [] (·.line now)) := by
  unfold emit
  cases j.logger? i with
  | none =>
    rw [Option.elim_none, List.append_nil]
    exact h
  | some l =>
    dsimp only
    rw [Option.elim_some]
    cases l.complete? e with
    | none =>
      rw [Option.elim_none, List.append_nil]
      exact h
    | some e => exact held?_write h l.echoes e now

theorem held?_step (h : j.held? = some held) (s : LogStep) :
    (j.step s).held? = some (held ++
      ((s.emission? j.loggers).toList.filter Emission.isLogged).flatMap Emission.line) := by
  cases s with
  | emit i e now =>
    rw [step, held?_emit h, LogStep.emission?, logger?]
    cases j.loggers[i]?.join with
    | none => rfl
    | some l =>
      rw [Option.elim_some, Emission.complete?_emission ⟨l, e, now⟩]
      rfl
  | set i setting => exact h.trans (congrArg some (List.append_nil held).symm)
  | derive i component => exact h.trans (congrArg some (List.append_nil held).symm)

theorem held?_run (h : j.held? = some held) (steps : List LogStep) :
    (j.run steps).held? = some (held ++
      ((emissions j.loggers steps).filter Emission.isLogged).flatMap Emission.line) := by
  -- A step leaves both what the next one writes behind and the settings that it writes by.
  induction steps generalizing j held with
  | nil =>
    rw [emissions, List.filter_nil, List.flatMap_nil, List.append_nil]
    exact h
  | cons s steps ih =>
    rw [emissions, ← loggers_step, List.filter_append, List.flatMap_append, ← List.append_assoc]
    exact ih (held?_step h s)

/-- **The log is one object per line.** Whatever is done with the loggers of a journal, its sink gains
a line for each entry that passes the minimum level in force when it is handed over, in order, and
nothing else. Each line is one object that holds the entry, and the newline behind it is its only
control byte, so the newlines part the lines. Entries of texts are logged by their levels alone, and
the minimum level in force is the one that was set last. -/
theorem log_lines (h : j.held? = some held) (steps : List LogStep) :
    let logged := (emissions j.loggers steps).filter Emission.isLogged
    (j.run steps).held? = some (held ++ logged.flatMap Emission.line) ∧
      Bytes.splitOn 10 (logged.flatMap Emission.line) = logged.map Emission.text ++ [[]] ∧
      (∀ x ∈ logged, x.WellFormed) ∧
      (∀ x ∈ emissions j.loggers steps, x.entry.IsTextual → x.isLogged = x.passes) ∧
      (emissions j.loggers steps).map (fun x => x.logger.floor) =
        levelsInForce (j.loggers.map (Option.map Logger.floor)) steps := by
  have hwell : ∀ x ∈ (emissions j.loggers steps).filter Emission.isLogged, x.WellFormed :=
    fun x hx => Emission.wellFormed (List.mem_filter.1 hx).2
  exact ⟨held?_run h steps, Emission.splitOn_lines hwell, hwell,
    fun x _ htextual => Emission.isLogged_of_isTextual htextual, floors_emissions j.loggers steps⟩

/-- A journal with a new file and one logger. -/
def opened : Journal :=
  let file := Sink.nowhere.openAt "logs/run.log" .empty
  { sink := file.sink, loggers := [some { component := "cli" }], files := file.files }

/-- A message that looks like the end of a line and the beginning of another. -/
def forged : Emission where
  logger := { component := "cli" }
  entry := { msg := "\x7d\n\x7b", vars := [("k\"", .list [.text [0xFF, 0x0A]])] }
  now := "t"

/-- An error that another component logs when the level has been raised. -/
def loud : Emission where
  logger := { component := "store", minLevel := Level.warn.name }
  entry := { level := "ERROR", msg := "loud" }
  now := "t"

/-- Both of them, and one in between that does not pass. -/
def forgery : List LogStep :=
  [.emit 0 forged.entry "t", .set 0 (.minLevel " warning "), .emit 0 { msg := "quiet" } "t",
   .derive 0 "store", .emit 1 loud.entry "t"]

/-- The message is one line all the same. -/
theorem log_lines_forgery :
    opened.held? = some [] ∧ (opened.run forgery).held? = some (forged.line ++ loud.line) ∧
      Bytes.splitOn 10 (forged.line ++ loud.line) = [forged.text, loud.text, []] ∧
      forged.WellFormed ∧ loud.WellFormed := by
  have hheld : opened.held? = some [] := by decide +kernel
  have hraised : (Setting.minLevel " warning ").apply =
      fun l => { l with minLevel := Level.warn.name } := by
    have hparse : Level.parse " warning " = .warn := by decide +kernel
    funext l
    rw [Setting.apply, Logger.setMinLevel, hparse]
  have hlogged : (emissions opened.loggers forgery).filter Emission.isLogged = [forged, loud] := by
    simp only [forgery, emissions, LogStep.settle, hraised]
    rfl
  obtain ⟨hrun, hsplit, hwell, -⟩ := log_lines hheld forgery
  rw [hlogged] at hrun hsplit hwell
  rw [List.flatMap_cons, List.flatMap_cons, List.flatMap_nil, List.append_nil] at hrun hsplit
  exact ⟨hheld, hrun, hsplit, hwell forged (by simp), hwell loud (by simp)⟩

end Journal

end ChartScript
