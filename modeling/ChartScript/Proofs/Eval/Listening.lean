import ChartScript.Proofs.Eval.Acts
import ChartScript.Proofs.Eval.Replay
import ChartScript.Proofs.Log.Lines
import Mathlib.Data.List.Forall2

/-!
# Listening to a run

A logger listens and has no say: a run answers alike and leaves the same scopes, the same host and
the same calls whether there is one or not. What is heard is complete. There is one `ERROR` entry
for a statement that was rejected and none for any other end of a run; at minimum level `DEBUG`
there is one entry for each statement recorded, in order, and one right ahead of each call.
`evalSource_listening` says all of it of every run.

It is said of an act first. A run is a list of acts that does not depend on who listens, and what is
heard is what its acts leave in the trace, one after the other.
-/

set_option autoImplicit false

namespace ChartScript

variable {σ : Type}

/-! ## What passes a logger -/

theorem Entry.levelled_of_name {e : Entry} {level : Level} (h : e.level = level.name) :
    e.levelled = e := by
  have hnamed : e.level.isEmpty = false := by
    rw [h]
    cases level <;> decide
  rw [levelled, hnamed, if_neg Bool.false_ne_true]

namespace Logger

theorem complete?_of_name (l : Logger) {e : Entry} {level : Level} (h : e.level = level.name) :
    l.complete? e = if l.admits level.name then some (l.filled e) else none := by
  rw [l.complete?_eq, Entry.levelled_of_name h, h]

theorem admits_error (l : Logger) : l.admits Level.error.name = true := by
  have hrank : ∀ level : Level, level.rank ≤ Level.error.rank := by
    intro level
    cases level <;> decide
  unfold admits
  rw [Level.ofName?_name]
  exact decide_eq_true (hrank _)

theorem admits_debug {l : Logger} (h : l.minLevel = Level.debug.name) :
    l.admits Level.debug.name = true := by
  unfold admits
  rw [h]
  decide

end Logger

/-! ## What an act leaves in the trace -/

namespace Event

/-- The entry of an event, if something was logged. -/
def entry? : Event → Option Entry
  | .logged e => some e
  | .called .. => none

/-- The call of an event, if one was made. -/
def call? : Event → Option (Bytes × List Value)
  | .logged _ => none
  | .called name args => some (name, args)

end Event

/-- The entries among some events. -/
def written (events : List Event) : List Entry := events.filterMap Event.entry?

theorem written_logged (es : List Entry) : written (es.map .logged) = es := by
  rw [written, List.filterMap_map]
  exact List.filterMap_some

namespace Act

/-- What an act says to whoever listens. -/
def entry? : Act → Option Entry
  | .store _ _ => none
  | .call fn args => some (Evaluator.callEntry fn args)
  | .record stmt v => some (Evaluator.statementEntry stmt v)
  | .reject e => some (Evaluator.syntaxEntry e)

/-- The level at which it says so. -/
def level : Act → Level
  | .reject _ => .error
  | _ => .debug

/-- The call that an act makes. -/
def call? : Act → Option (Bytes × List Value)
  | .call fn args => some (fn.lexeme, args)
  | _ => none

/-- The entries that a logger writes for an act. -/
def entries (l : Logger) (act : Act) : List Entry :=
  if l.admits act.level.name then (act.entry?.map l.filled).toList else []

theorem ofEntry_eq (l : Logger) (act : Act) {e : Entry} (h : act.entry? = some e) :
    Event.ofEntry (some l) e = (act.entries l).map .logged := by
  have hlevel : e.level = act.level.name := by
    cases act <;> cases h <;> rfl
  unfold Event.ofEntry entries
  rw [Option.bind_some, l.complete?_of_name hlevel, h]
  cases l.admits act.level.name <;> rfl

theorem events_eq (l : Logger) (act : Act) :
    act.events (some l) =
      (act.entries l).map .logged ++ (act.call?.map fun c => .called c.1 c.2).toList := by
  cases act with
  | store name v =>
    unfold entries
    cases l.admits _ <;> rfl
  | call fn args =>
    rw [events, ofEntry_eq l (.call fn args) rfl]
    rfl
  | record stmt v =>
    rw [events, ofEntry_eq l (.record stmt v) rfl]
    exact (List.append_nil _).symm
  | reject e =>
    rw [events, ofEntry_eq l (.reject e) rfl]
    exact (List.append_nil _).symm

theorem written_events (l : Logger) (act : Act) :
    written (act.events (some l)) = act.entries l := by
  rw [events_eq, written, List.filterMap_append, ← written, written_logged]
  cases act <;> exact List.append_nil _

theorem calls_events (logger : Option Logger) (act : Act) :
    (act.events logger).filterMap Event.call? = act.call?.toList := by
  have hquiet : ∀ e, (Event.ofEntry logger e).filterMap Event.call? = [] := by
    intro e
    unfold Event.ofEntry
    cases logger.bind (·.complete? e) <;> rfl
  cases act with
  | store name v => rfl
  | call fn args =>
    rw [events, List.filterMap_append, hquiet]
    rfl
  | record stmt v => exact hquiet _
  | reject e => exact hquiet _

end Act

theorem World.calls_after (w : World σ) (ev : Evaluator σ) (acts : List Act) :
    (w.after ev acts).calls = w.calls ++ acts.filterMap Act.call? := by
  have hcalls : ∀ w : World σ, w.calls = w.trace.filterMap Event.call? := fun _ => rfl
  have hacts : (fun act => (Act.events ev.logger act).filterMap Event.call?) =
      fun act => act.call?.toList := funext (Act.calls_events ev.logger)
  rw [hcalls, hcalls, after, List.filterMap_append, List.filterMap_flatMap, hacts,
    ← List.filterMap_eq_flatMap_toList]

/-- What is heard of the acts one by one is heard of them together. -/
theorem forall₂_written {β : Type} {R : Entry → β → Prop} {p : Entry → Bool}
    {told? : Act → Option β} (l : Logger)
    (h : ∀ act : Act, List.Forall₂ R ((act.entries l).filter p) (told? act).toList)
    (acts : List Act) :
    List.Forall₂ R ((written (acts.flatMap (Act.events (some l)))).filter p)
      (acts.filterMap told?) := by
  rw [List.filterMap_eq_flatMap_toList]
  induction acts with
  | nil => exact .nil
  | cons act acts ih =>
    rw [List.flatMap_cons, List.flatMap_cons, written, List.filterMap_append, ← written, ← written,
      List.filter_append, Act.written_events]
    exact List.rel_append (h act) ih

/-! ## What is heard -/

theorem Level.name_beq (level level' : Level) :
    ((level.name : Bytes) == (level'.name : Bytes)) = decide (level = level') := by
  cases level <;> cases level' <;> decide

namespace Entry

/-- Whether an entry is logged at a level. -/
def isAt (entry : Entry) (level : Level) : Bool := entry.level == (level.name : Bytes)

/-- Whether an entry is logged at a level with some words. -/
def tells (entry : Entry) (level : Level) (words : Bytes) : Bool :=
  entry.isAt level && entry.msg == words

/-- The entry of a statement that is rejected. -/
structure Rejects (entry : Entry) (e : SyntaxError) : Prop where
  msg : entry.msg = e.cause.text
  vars : entry.vars = ([("func", .text e.func), ("pos", .text e.pos.text)] : List (Bytes × Datum))

/-- The entry of a statement that is recorded. -/
structure Reports (entry : Entry) (r : Result) : Prop where
  vars : entry.vars =
    ([("statement", .text r.statement.text), ("value", .text r.value.describe)] :
      List (Bytes × Datum))

/-- The entry of a call that is about to be made. -/
structure Announces (entry : Entry) (name : Bytes) (args : List Value) : Prop where
  tells : entry.tells .debug "invoke function" = true
  vars : ∃ pos, entry.vars =
    ([("func", .text name), ("argc", .int args.length), ("pos", pos)] : List (Bytes × Datum))

end Entry

/-- Events in which each call is announced, once and right ahead of it, and nothing else is. -/
inductive Announced : List Event → Prop where
  | nil : Announced []
  | call {entry : Entry} {name : Bytes} {args : List Value} {events : List Event}
      (h : entry.Announces name args) (rest : Announced events) :
      Announced (.logged entry :: .called name args :: events)
  | other {entry : Entry} {events : List Event} (h : entry.tells .debug "invoke function" = false)
      (rest : Announced events) : Announced (.logged entry :: events)

theorem Announced.append {events events' : List Event} (h : Announced events)
    (h' : Announced events') : Announced (events ++ events') := by
  induction h with
  | nil => exact h'
  | call h rest ih => exact .call h ih
  | other h rest ih => exact .other h ih

/-- What a logger hears of a run that ends with some results and, if it does, with a rejection. -/
structure Logger.Hears (l : Logger) (results : List Result) (rejection : Option SyntaxError)
    (events : List Event) : Prop where
  lines : ∀ entry ∈ written events, ∀ now,
    entry.line now = (entry.datum now).write ++ Bytes.newline
  errors : List.Forall₂ Entry.Rejects ((written events).filter (·.isAt .error)) rejection.toList
  statements : l.minLevel = Level.debug.name →
    List.Forall₂ Entry.Reports
      ((written events).filter (·.tells .debug "statement evaluated")) results
  calls : l.minLevel = Level.debug.name → Announced events

namespace Act

section

variable {l : Logger} {e : Entry}

theorem entries_of_silent (act : Act) (h : act.entry? = none) : act.entries l = [] := by
  rw [entries, h]
  cases l.admits act.level.name <;> rfl

theorem entries_of_admits (act : Act) (h : act.entry? = some e)
    (hl : l.admits act.level.name = true) : act.entries l = [l.filled e] := by
  rw [entries, h, if_pos hl]
  rfl

theorem filter_entries (act : Act) (p : Entry → Bool) (h : act.entry? = some e)
    (hp : p (l.filled e) = false) : (act.entries l).filter p = [] := by
  rw [entries, h]
  cases l.admits act.level.name with
  | false => rfl
  | true =>
    have hnot : ¬p (l.filled e) = true := by
      rw [hp]
      exact Bool.false_ne_true
    exact List.filter_cons_of_neg hnot

theorem filter_entries_of_admits (act : Act) (p : Entry → Bool) (h : act.entry? = some e)
    (hl : l.admits act.level.name = true) (hp : p (l.filled e) = true) :
    (act.entries l).filter p = [l.filled e] := by
  rw [entries_of_admits act h hl]
  exact List.filter_cons_of_pos hp

theorem isAt_filled (l : Logger) (act : Act) (h : act.entry? = some e) (level : Level) :
    (l.filled e).isAt level = decide (act.level = level) := by
  have hlevel : e.level = act.level.name := by
    cases act <;> cases h <;> rfl
  rw [← Level.name_beq, ← hlevel]
  rfl

theorem tells_filled (l : Logger) (act : Act) (h : act.entry? = some e) (words : Bytes) :
    (l.filled e).tells .debug words = (decide (act.level = .debug) && e.msg == words) := by
  rw [Entry.tells, isAt_filled l act h]
  rfl

end

theorem forall₂_errors (l : Logger) (act : Act) :
    List.Forall₂ Entry.Rejects ((act.entries l).filter (·.isAt .error)) act.rejection?.toList := by
  -- Only a rejection is told at `ERROR`, and no minimum level holds it back.
  cases act with
  | store name v =>
    rw [entries_of_silent _ rfl]
    exact .nil
  | call fn args =>
    rw [filter_entries _ _ rfl (isAt_filled l (.call fn args) rfl .error)]
    exact .nil
  | record stmt v =>
    rw [filter_entries _ _ rfl (isAt_filled l (.record stmt v) rfl .error)]
    exact .nil
  | reject e =>
    rw [filter_entries_of_admits (.reject e) _ rfl l.admits_error
      (isAt_filled l (.reject e) rfl .error)]
    exact .cons ⟨rfl, rfl⟩ .nil

theorem forall₂_statements {l : Logger} (hl : l.minLevel = Level.debug.name) (act : Act) :
    List.Forall₂ Entry.Reports ((act.entries l).filter (·.tells .debug "statement evaluated"))
      act.result?.toList := by
  -- A call is told at the same level, but in other words; a rejection might be in any words.
  cases act with
  | store name v =>
    rw [entries_of_silent _ rfl]
    exact .nil
  | call fn args =>
    have htells := tells_filled l (.call fn args) rfl "statement evaluated"
    rw [filter_entries _ _ rfl htells]
    exact .nil
  | record stmt v =>
    have htells := tells_filled l (.record stmt v) rfl "statement evaluated"
    rw [filter_entries_of_admits (.record stmt v) _ rfl (Logger.admits_debug hl) htells]
    exact .cons ⟨rfl⟩ .nil
  | reject e =>
    have htells := tells_filled l (.reject e) rfl "statement evaluated"
    rw [filter_entries _ _ rfl htells]
    exact .nil

theorem announced_events {l : Logger} (hl : l.minLevel = Level.debug.name) (act : Act) :
    Announced (act.events (some l)) := by
  rw [events_eq]
  cases act with
  | store name v =>
    rw [entries_of_silent _ rfl]
    exact .nil
  | call fn args =>
    have htells := tells_filled l (.call fn args) rfl "invoke function"
    rw [entries_of_admits (.call fn args) rfl (Logger.admits_debug hl)]
    exact .call ⟨htells, _, rfl⟩ .nil
  | record stmt v =>
    have htells := tells_filled l (.record stmt v) rfl "invoke function"
    rw [entries_of_admits (.record stmt v) rfl (Logger.admits_debug hl)]
    exact .other htells .nil
  | reject e =>
    have htells := tells_filled l (.reject e) rfl "invoke function"
    rw [entries_of_admits (.reject e) rfl l.admits_error]
    exact .other htells .nil

end Act

/-! ## Lines -/

namespace Act

theorem isWritable_of_entry {act : Act} {e : Entry} (h : act.entry? = some e) :
    e.isWritable = true := by
  cases act <;> cases h <;> rfl

theorem line_of_mem {l : Logger} {act : Act} {entry : Entry} (h : entry ∈ act.entries l)
    (now : Bytes) : entry.line now = (entry.datum now).write ++ Bytes.newline := by
  cases he : act.entry? with
  | none =>
    rw [entries_of_silent act he] at h
    cases h
  | some e =>
    unfold entries at h
    rw [he] at h
    split at h
    · obtain rfl : entry = l.filled e := List.mem_singleton.1 h
      exact (Entry.line_eq (l.filled e) now).trans (if_pos (isWritable_of_entry he))
    · cases h

end Act

theorem announced_acts {l : Logger} (hl : l.minLevel = Level.debug.name) (acts : List Act) :
    Announced (acts.flatMap (Act.events (some l))) := by
  induction acts with
  | nil => exact .nil
  | cons act acts ih =>
    rw [List.flatMap_cons]
    exact (Act.announced_events hl act).append ih

theorem Logger.hears_acts (l : Logger) {acts : List Act} {rejection : Option SyntaxError}
    (h : acts.filterMap Act.rejection? = rejection.toList) :
    l.Hears (acts.filterMap Act.result?) rejection (acts.flatMap (Act.events (some l))) where
  lines := by
    intro entry hentry now
    rw [written, List.filterMap_flatMap, List.mem_flatMap] at hentry
    obtain ⟨act, -, hentry⟩ := hentry
    rw [← written, Act.written_events] at hentry
    exact Act.line_of_mem hentry now
  errors := by
    rw [← h]
    exact forall₂_written l (Act.forall₂_errors l) acts
  statements hl := forall₂_written l (Act.forall₂_statements hl) acts
  calls hl := announced_acts hl acts

namespace Evaluator

/-- **Listening changes nothing and misses nothing.** A run with a logger, at whatever minimum level,
answers as the run without one does and leaves the same scopes, host and calls. The logger hears of
the rejection that the run ends with, if it does; at `DEBUG` also of each statement that is recorded
and of each call that is made. -/
theorem evalSource_listening (ev : Evaluator σ) (source : Bytes) (w : World σ) (l : Logger) :
    let silent := ((ev.heardBy none).evalSource source).run w
    let heard := ((ev.heardBy (some l)).evalSource source).run w
    heard.1 = silent.1 ∧ heard.2.state = silent.2.state ∧ heard.2.calls = silent.2.calls ∧
      ∃ acts events, heard.2 = w.after (ev.heardBy (some l)) acts ∧
        acts.filterMap Act.result? = heard.1.1 ∧ heard.2.trace = w.trace ++ events ∧
        l.Hears heard.1.1 (heard.1.2.bind ScriptError.rejection?) events := by
  obtain ⟨out, acts, hheard, hresults, hrejects⟩ := ev.evalSource_acts source w.state
  dsimp only at hheard ⊢
  rw [hheard none w rfl, hheard (some l) w rfl]
  refine ⟨rfl, ?_, ?_, acts, acts.flatMap (Act.events (some l)), rfl, hresults, rfl, ?_⟩
  · rw [ev.state_after rfl, ev.state_after rfl]
  · rw [World.calls_after, World.calls_after]
  · have hhears := l.hears_acts hrejects
    rwa [hresults] at hhears

/-- A logger that lets everything pass. -/
def attentive : Logger where
  component := "eval"
  minLevel := Level.debug.name

/-- One entry reports the statement on two lines, none the empty one behind it, and nothing is
rejected. -/
theorem evalSource_listening_spread :
    ∃ events entry r,
      (((standard (some attentive)).evalSource (Bytes.join Bytes.newline spread)).run
        (.fresh {})).2.trace = events ∧
      (written events).filter (·.tells .debug "statement evaluated") = [entry] ∧
      entry.Reports r ∧ r.value = .text [] ∧
      (written events).filter (·.isAt .error) = [] ∧ Announced events := by
  obtain ⟨results, u, hrun, hvalues, -⟩ := run_spread
  obtain ⟨hsame, -, -, acts, events, -, -, htrace, -, herrors, hstatements, hcalls⟩ :=
    evalSource_listening (standard none) (Bytes.join Bytes.newline spread) (.fresh {}) attentive
  obtain ⟨r, rfl, hr⟩ := List.map_eq_singleton_iff.1 hvalues
  have hanswer := hsame.trans (congrArg Prod.fst hrun)
  rw [hanswer] at herrors hstatements
  obtain ⟨entry, rest, hreports, hnil, hentries⟩ := List.forall₂_cons_right_iff.1 (hstatements rfl)
  rw [List.forall₂_nil_right_iff.1 hnil] at hentries
  exact ⟨events, entry, r, htrace, hentries, hreports, hr, List.forall₂_nil_right_iff.1 herrors,
    hcalls rfl⟩

end Evaluator

end ChartScript
