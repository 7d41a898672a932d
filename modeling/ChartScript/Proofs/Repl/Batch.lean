import ChartScript.Command.Desk
import ChartScript.Proofs.Eval.Growth
import ChartScript.Proofs.Eval.Replay

/-!
# A conversation runs what a batch runs

Lines that are typed one by one are put together until they end in a terminator, and what was put
together is run by itself. If every line lexes, the tokens of these pieces are the tokens of all
lines, cut behind terminators (`Prompted.read_outcome`). So if all lines together run without an
error, the pieces are parts of one list of statements, and they are run one after the other as the
list is. Nothing that was typed is an order, because what lexes does not begin with a colon. What a
desk shows of such a conversation are the pieces in turn (`Conversed.shown`), and behind them the
prompt at which the input ends.
-/

set_option autoImplicit false

namespace ChartScript

open Step

/-! ## Desks -/

namespace Desk

variable (d : Desk)

theorem say_say (text more : Bytes) : (d.say text).say more = d.say (text ++ more) := by
  have hout : ∀ o : Output, o ++ { out := text } ++ { out := more } =
      o ++ ({ out := text ++ more } : Output) := by
    intro o
    exact congrArg₂ Output.mk (List.append_assoc ..) (List.append_nil _)
  unfold say
  rw [hout]

/-- The log goes to the error stream or to a file, so it does not matter whether an entry is written
before a text is shown or after it. -/
theorem write_say (text : Bytes) (e : Entry) : (d.say text).write e = (d.write e).say text := by
  have hout : ∀ line, d.output ++ { out := text } ++ { err := line } =
      d.output ++ { err := line } ++ ({ out := text } : Output) := by
    intro line
    refine congrArg₂ Output.mk ?_ ?_
    · exact (List.append_nil _).trans (congrArg (· ++ text) (List.append_nil _).symm)
    · exact (congrArg (· ++ line) (List.append_nil _)).trans (List.append_nil _).symm
  unfold write say
  dsimp only
  rw [hout]

theorem foldl_write_say (text : Bytes) (entries : List Entry) :
    entries.foldl write (d.say text) = (entries.foldl write d).say text := by
  induction entries generalizing d with
  | nil => rfl
  | cons e entries ih => rw [List.foldl_cons, write_say, ih, List.foldl_cons]

theorem say_pass (text printed : Bytes) (entries : List Entry) :
    (d.say text).pass printed entries = d.pass (text ++ printed) entries := by
  rw [pass, say_say, pass]

theorem pass_say (printed : Bytes) (entries : List Entry) (text : Bytes) :
    (d.pass printed entries).say text = d.pass (printed ++ text) entries := by
  rw [pass, ← foldl_write_say, say_say, pass]

theorem pass_pass (printed printed' : Bytes) (entries entries' : List Entry) :
    (d.pass printed entries).pass printed' entries' =
      d.pass (printed ++ printed') (entries ++ entries') := by
  rw [pass, pass_say, pass, ← List.foldl_append, pass]

theorem write_out (e : Entry) : (d.write e).output.out = d.output.out := List.append_nil _

theorem pass_out (printed : Bytes) (entries : List Entry) :
    (d.pass printed entries).output.out = d.output.out ++ printed := by
  have hlog : (entries.foldl write d).output.out = d.output.out := by
    induction entries generalizing d with
    | nil => rfl
    | cons e entries ih => rw [List.foldl_cons, ih, write_out]
  rw [pass, foldl_write_say]
  exact congrArg (· ++ printed) hlog

theorem pass_err (printed : Bytes) (entries : List Entry) :
    (d.pass printed entries).output.err = (entries.foldl write d).output.err := by
  rw [pass, foldl_write_say]
  exact List.append_nil _

end Desk

/-! ## Pieces -/

/-- What is shown of lines that were put together and run: a prompt for each of them, what the run
printed, and the values. -/
structure Exchange where
  first : Bytes
  more : List Bytes
  printed : Bytes
  values : List Value

namespace Exchange

/-- The lines that were put together. -/
def lines (x : Exchange) : List Bytes := x.first :: x.more

/-- The prompts for the lines behind the first one. -/
def continued (more : List Bytes) : Bytes := more.flatMap fun _ => Bytes.ofString "... "

/-- The values, a line each. -/
def report (x : Exchange) : Bytes := x.values.flatMap fun v => v.describe ++ Bytes.newline

/-- All that is shown. -/
def text (x : Exchange) : Bytes := "dt> " ++ continued x.more ++ x.printed ++ x.report

end Exchange

namespace Prompted

theorem isOrder_of_reads {line : Bytes} {tokens : List Token} (h : Reads line tokens) :
    isOrder line = false := by
  unfold isOrder
  rw [beq_eq_false_iff_ne]
  exact h.head?_trim_ne

theorem reads_extend {pending line : Bytes} {p q : List Token} (hp : Reads pending p)
    (hq : Reads line q) : Reads (extend pending line) (p ++ q) := by
  cases pending with
  | nil =>
    obtain rfl := hp.eq_nil_of_trim Bytes.trim_nil
    exact hq
  | cons b pending => exact hp.append hq

/-- What was typed of a statement that is not at its end is not empty. -/
theorem prompt_of_isOpen {pending : Bytes} {p : List Token} (hp : Reads pending p)
    (hopen : isOpen p = true) : prompt pending = "... " := by
  cases pending with
  | nil =>
    obtain rfl := hp.eq_nil_of_trim Bytes.trim_nil
    cases hopen
  | cons b pending => rfl

/-- What comes of asking when the pending text has the tokens `p` and the lines have the tokens
`parts`: a piece that is closed and the lines behind it, or the end of the input within a piece. -/
inductive Outcome (pending : Bytes) (p : List Token) (lines : List Bytes)
    (parts : List (List Token)) (x : Prompted) : Prop where
  | piece (source : Bytes) (q : List Token) (others : List (List Token)) (rest : List Bytes)
      (first : Bytes) (more : List Bytes) (found : x.source = some source)
      (reads : Reads source (p ++ q))
      (closed : isOpen (p ++ q) = false) (left : x.rest = rest.map .line)
      (behind : List.Forall₂ Reads rest others) (tokens : parts.flatten = q ++ others.flatten)
      (prompts : x.prompts = prompt pending ++ Exchange.continued more)
      (used : lines = first :: more ++ rest)
  | ended (found : x.source = none) (within : parts = [] ∨ isOpen (p ++ parts.flatten) = true)

theorem read_outcome {pending : Bytes} {p : List Token} (hp : Reads pending p)
    {lines : List Bytes} {parts : List (List Token)} (h : List.Forall₂ Reads lines parts) :
    Outcome pending p lines parts (read pending (lines.map .line)) := by
  induction h generalizing pending p with
  | nil => exact .ended rfl (.inl rfl)
  | @cons line q lines parts hline hlines ih =>
    have hsource := reads_extend hp hline
    have hmore : (!(pending.isEmpty && isOrder line) && needsMore (extend pending line)) =
        isOpen (p ++ q) := by
      rw [isOrder_of_reads hline, hsource.needsMore]
      simp
    rw [List.map_cons]
    unfold read
    dsimp only
    rw [hmore]
    cases hopen : isOpen (p ++ q) with
    | false =>
      exact .piece _ q parts lines line [] rfl hsource hopen rfl hlines List.flatten_cons
        (List.append_nil _).symm rfl
    | true =>
      have happend : ∀ more, p ++ (q ++ more) = p ++ q ++ more := by simp
      rw [if_pos rfl]
      cases ih hsource with
      | piece source q' others rest first more found reads closed left behind tokens prompts used =>
        refine .piece source (q ++ q') others rest line (first :: more) found ?_ ?_ left behind
          ?_ ?_ (congrArg _ used)
        · rwa [happend]
        · rwa [happend]
        · rw [List.flatten_cons, tokens, List.append_assoc]
        · dsimp only
          rw [prompts, prompt_of_isOpen hsource hopen]
          rfl
      | ended found within =>
        refine .ended found (.inr ?_)
        rw [List.flatten_cons, happend]
        rcases within with rfl | hwithin
        · rwa [List.flatten_nil, List.append_nil]
        · exact hwithin

end Prompted

/-! ## Answers -/

/-- An answer that reports no error, with what was printed and logged and the values that are
shown. -/
inductive Answer.Gives : Bytes → List Entry → List Value → Answer → Prop where
  | nothing : Gives [] [] [] (.shown [])
  | values (source : Bytes) (results : List Result) (printed : Bytes) (entries : List Entry) :
      Gives printed entries (results.map Result.value) (.ran source ⟨results, none, printed, entries⟩)

theorem Answer.Gives.error_eq_none {printed : Bytes} {entries : List Entry} {vs : List Value}
    {source : Bytes} {seen : Observation} (h : (ran source seen).Gives printed entries vs) :
    seen.error = none := by
  cases h
  rfl

/-- What a desk shows of a turn that reports no error. -/
theorem Desk.showTurn_of_gives {answer : Answer} {printed : Bytes} {entries : List Entry}
    {vs : List Value} (h : answer.Gives printed entries vs) (first : Bytes) (more : List Bytes)
    (d : Desk) :
    d.showTurn ⟨"dt> " ++ Exchange.continued more, answer⟩ =
      d.pass (Exchange.text ⟨first, more, printed, vs⟩) entries := by
  cases h with
  | nothing =>
    have htext : Exchange.text ⟨first, more, [], []⟩ =
        Bytes.ofString "dt> " ++ Exchange.continued more ++ [] := List.append_nil _
    rw [htext]
    exact d.say_say _ []
  | values source results printed entries =>
    have hreport : Output.ofRun results none =
        { out := Exchange.report ⟨first, more, printed, results.map Result.value⟩ } := by
      rw [Exchange.report, List.flatMap_map]
      rfl
    dsimp only [showTurn]
    rw [hreport, say_pass]
    exact pass_say ..

/-- The turns of a conversation over some lines and the worlds before and after it: no turn reports
an error, and what a desk shows are the pieces and the prompt at which the input ends. -/
structure Conversed (lines : List Bytes) (turns : List Turn) (pieces : List Exchange)
    (u u' : World Host) : Prop where
  clean : ∀ turn ∈ turns, ∀ source seen, turn.answer = .ran source seen → seen.error = none
  shown : ∀ d : Desk, turns.foldl Desk.showTurn d =
    d.pass (pieces.flatMap Exchange.text ++ "dt> " ++ Bytes.newline) (u'.entriesSince u)
  printed : pieces.flatMap Exchange.printed = u'.printedSince u
  used : pieces.flatMap Exchange.lines = lines
  grows : u.Grows u'

namespace Conversed

theorem ended (u : World Host) : Conversed [] [⟨"dt> ", .ended⟩] [] u u where
  clean turn hturn source seen h := by
    obtain rfl := List.mem_singleton.1 hturn
    cases h
  shown d := by
    rw [u.entriesSince_self]
    exact d.say_say "dt> " Bytes.newline
  printed := u.printedSince_self.symm
  used := rfl
  grows := .refl u

theorem turn {lines : List Bytes} {answer : Answer} {turns : List Turn} {pieces : List Exchange}
    {vs : List Value} {u u₁ u' : World Host} (first : Bytes) (more : List Bytes)
    (hgives : answer.Gives (u₁.printedSince u) (u₁.entriesSince u) vs) (hgrows : u.Grows u₁)
    (hrest : Conversed lines turns pieces u₁ u') :
    Conversed (first :: more ++ lines) (⟨"dt> " ++ Exchange.continued more, answer⟩ :: turns)
      (⟨first, more, u₁.printedSince u, vs⟩ :: pieces) u u' where
  clean turn hturn source seen h := by
    rcases List.mem_cons.1 hturn with rfl | hturn
    · dsimp only at h
      subst h
      exact hgives.error_eq_none
    · exact hrest.clean turn hturn source seen h
  shown d := by
    rw [List.foldl_cons, Desk.showTurn_of_gives hgives first, hrest.shown, Desk.pass_pass,
      ← hgrows.entriesSince hrest.grows, List.flatMap_cons]
    simp only [List.append_assoc]
  printed := by rw [List.flatMap_cons, hrest.printed, ← hgrows.printedSince hrest.grows]
  used := by rw [List.flatMap_cons, hrest.used, Exchange.lines]
  grows := hgrows.trans hrest.grows

end Conversed

namespace Respondent

variable (r : Respondent)

theorem run_answer_blank {source : Bytes} (h : source.trim = []) (u : World Host) :
    (r.answer source).run u = (.shown [], u) := by
  unfold answer
  dsimp only
  rw [h]
  rfl

theorem run_answer_source {source : Bytes} (h : source.trim ≠ [])
    (ho : Prompted.isOrder source = false) (u : World Host) :
    (r.answer source).run u =
      let run := (r.evaluator.evalSource source).run u
      (.ran source ⟨run.1.1, run.1.2, run.2.printedSince u, run.2.entriesSince u⟩, run.2) := by
  unfold answer
  dsimp only
  rw [if_neg (by simpa using h), if_neg (by rw [ho]; decide)]
  rfl

/-- A piece is answered by the values of its statements. -/
theorem answer_of_reads {r : Respondent} (hr : r.evaluator.IsStandard) {source : Bytes}
    {tokens : List Token} (hs : Reads source tokens) {stmts : List Statement}
    (ht : Terminated tokens stmts) {w w' u : World Host} {vs : List Value}
    (h : on (r.evaluator.evalEach stmts) w = (.ok vs, w')) (hu : w.Agrees u) :
    ∃ a u', (r.answer source).run u = (a, u') ∧ a.isLast = false ∧
      a.Gives (u'.printedSince u) (u'.entriesSince u) vs ∧ u.Grows u' ∧ w'.Agrees u' := by
  by_cases hblank : source.trim = []
  · -- There are no tokens in it.
    obtain rfl := hs.eq_nil_of_trim hblank
    obtain rfl := ht.eq_nil
    cases h
    refine ⟨.shown [], u, r.run_answer_blank hblank u, rfl, ?_, .refl u, hu⟩
    rw [u.printedSince_self, u.entriesSince_self]
    exact .nothing
  · obtain ⟨results, u', hrun, rfl, hagrees⟩ :=
      Evaluator.evalSource_of_reads hr hs ht h hu
    have hanswer := r.run_answer_source hblank (Prompted.isOrder_of_reads hs) u
    have hgrows := Evaluator.evalSource_grows hr source u
    rw [hrun] at hanswer hgrows
    exact ⟨_, u', hanswer, rfl, .values source results _ _, hgrows, hagrees⟩

theorem run_converse_nil (u : World Host) : (r.converse []).run u = ([⟨"dt> ", .ended⟩], u) := by
  rw [converse]
  rfl

theorem run_converse_some {lines : List Typed} {source : Bytes}
    (h : (Prompted.read [] lines).source = some source) {a : Answer} {u u' : World Host}
    (ha : (r.answer source).run u = (a, u')) (hlast : a.isLast = false) :
    (r.converse lines).run u =
      let rest := (r.converse (Prompted.read [] lines).rest).run u'
      (⟨(Prompted.read [] lines).prompts, a⟩ :: rest.1, rest.2) := by
  rw [converse]
  split
  · next h' =>
    rw [h] at h'
    cases h'
  · next source' h' =>
    rw [h] at h'
    cases h'
    rw [run_bind, ha]
    dsimp only
    rw [hlast]
    rfl

/-- Lines that are cut into statements are answered by the values of the statements, piece by
piece. -/
theorem converse_of_reads {r : Respondent} (hr : r.evaluator.IsStandard) {lines : List Bytes}
    {parts : List (List Token)} (hl : List.Forall₂ Reads lines parts) {stmts : List Statement}
    (ht : Terminated parts.flatten stmts) {w w' u : World Host} {vs : List Value}
    (h : on (r.evaluator.evalEach stmts) w = (.ok vs, w')) (hu : w.Agrees u) :
    ∃ turns u' pieces, (r.converse (lines.map .line)).run u = (turns, u') ∧
      Conversed lines turns pieces u u' ∧
      pieces.flatMap Exchange.values = vs ∧ w'.Agrees u' := by
  induction hn : lines.length using Nat.strongRecOn generalizing lines parts stmts w u vs with
  | ind n ih =>
    subst hn
    cases Prompted.read_outcome Reads.nil hl with
    | ended found within =>
      obtain rfl : parts = [] := by
        rcases within with hnil | hopen
        · exact hnil
        · rw [List.nil_append, ht.isOpen_eq_false] at hopen
          cases hopen
      obtain rfl := List.forall₂_nil_right_iff.1 hl
      obtain rfl := ht.eq_nil
      cases h
      exact ⟨_, u, [], r.run_converse_nil u, .ended u, rfl, hu⟩
    | piece source q others rest first more found reads closed left behind tokens prompts used =>
      rw [List.nil_append] at reads closed
      rw [tokens] at ht
      obtain ⟨s, t, rfl, hs, ht⟩ := ht.split closed
      obtain ⟨vs₁, vs₂, w₁, heach₁, heach₂, rfl⟩ := r.evaluator.on_evalEach_append h
      obtain ⟨a, u₁, hanswer, hlast, hgives, hgrows, hu₁⟩ := answer_of_reads hr reads hs heach₁ hu
      have hless : rest.length < lines.length := by
        rw [used, List.length_append, List.length_cons]
        omega
      obtain ⟨turns, u', pieces, hrest, hturns, rfl, hagrees⟩ := ih _ hless behind ht heach₂ hu₁ rfl
      have hrun := r.run_converse_some found hanswer hlast
      rw [left, hrest, prompts] at hrun
      have hconversed := hturns.turn first more hgives hgrows
      rw [← used] at hconversed
      exact ⟨_, u', ⟨first, more, u₁.printedSince u, vs₁⟩ :: pieces, hrun, hconversed,
        List.flatMap_cons, hagrees⟩

/-- **Lines typed one by one are run as all of them together.** If every line lexes and the lines
together run without an error, then no turn of the conversation reports an error. What any desk shows
of it on the standard stream are pieces, each with the prompts for its lines, what was printed, and
a line for each value; the lines of the pieces are those that were typed, what is printed and the
values are those of the run of all lines, and on the error stream there is the log alone. Every scope ends with the same dump. -/
theorem converse_batch (hr : r.evaluator.IsStandard) {lines : List Bytes}
    (hlines : ∀ line ∈ lines, ∃ tokens, lex line = .ok tokens) (w : World Host)
    (h : ((r.evaluator.evalSource (Bytes.join Bytes.newline lines)).run w).1.2 = none)
    (d : Desk) :
    let batch := (r.evaluator.evalSource (Bytes.join Bytes.newline lines)).run w
    let talk := (r.converse (lines.map .line)).run w
    let shown := talk.1.foldl Desk.showTurn d
    (∀ turn ∈ talk.1, ∀ source seen, turn.answer = .ran source seen → seen.error = none) ∧
      (∃ pieces : List Exchange,
        shown.output.out =
          d.output.out ++ (pieces.flatMap Exchange.text ++ "dt> " ++ Bytes.newline) ∧
        pieces.flatMap Exchange.values = batch.1.1.map Result.value ∧
        pieces.flatMap Exchange.report =
          batch.1.1.flatMap (fun r => r.value.describe ++ Bytes.newline) ∧
        pieces.flatMap Exchange.printed = batch.2.printedSince w ∧
        pieces.flatMap Exchange.lines = lines) ∧
      shown.output.err = ((talk.2.entriesSince w).foldl Desk.write d).output.err ∧
      talk.2.host = batch.2.host ∧
      ∀ i, (talk.2.forest.scope i).dump = (batch.2.forest.scope i).dump := by
  obtain ⟨parts, hparts⟩ := exists_reads hlines
  obtain ⟨tokens, hlex, hagrees⟩ := Reads.join hparts
  cases hrun : (r.evaluator.evalSource (Bytes.join Bytes.newline lines)).run w with
  | mk out w' =>
    obtain ⟨results, error⟩ := out
    rw [hrun] at h
    obtain rfl : error = none := h
    obtain ⟨tokens', stmts, hlex', hterm, heach, -, -⟩ := Evaluator.evalEach_of_evalSource hrun
    obtain rfl : tokens = tokens' := Except.ok.inj (hlex.symm.trans hlex')
    -- The statements as the single lines have them, and the run of these.
    obtain ⟨stmts', hterm', hstmts⟩ := hterm.of_agrees hagrees
    obtain ⟨w₁, heach₁, hw₁⟩ := Evaluator.evalEach_repeats hr hstmts w w (.refl w) _ _ heach
    obtain ⟨turns, u, pieces, htalk, hconversed, hvalues, hu⟩ :=
      converse_of_reads hr hparts hterm' heach₁ (.refl w)
    have hhost : u.host = w'.host := hu.host.symm.trans hw₁.host.symm
    dsimp only
    rw [htalk, hconversed.shown, Desk.pass_out, Desk.pass_err]
    refine ⟨hconversed.clean, ⟨pieces, rfl, hvalues, ?_, ?_, hconversed.used⟩, rfl, hhost, ?_⟩
    · unfold Exchange.report
      rw [← List.flatMap_assoc, hvalues, List.flatMap_map]
    · rw [hconversed.printed, World.printedSince, World.printedSince, hhost]
    · intro i
      rw [← (hu.forest.scope i).dump, ← (hw₁.forest.scope i).dump]

theorem lex_spread : ∀ line ∈ Evaluator.spread, ∃ tokens, lex line = .ok tokens := by
  cases Evaluator.reads_spread with
  | cons hfirst hrest =>
    cases hrest with
    | cons hsecond hnil =>
      obtain ⟨first, hfirst, -⟩ := hfirst
      obtain ⟨second, hsecond, -⟩ := hsecond
      intro line hline
      rcases List.mem_cons.1 hline with rfl | hline
      · exact ⟨first, hfirst⟩
      · obtain rfl := List.mem_singleton.1 hline
        exact ⟨second, hsecond⟩

/-- A desk in an empty directory. -/
def emptyDesk : Desk := { files := .empty, time := [] }

/-- A statement on two lines is run when the second line is there, and once: it prints an empty line
and has an empty text. -/
theorem converse_batch_spread :
    (((Evaluator.standard none).evalSource (Bytes.join Bytes.newline Evaluator.spread)).run
        (.fresh {})).1.2 = none ∧
      let talk := (converse ⟨.standard none, .standard⟩ (Evaluator.spread.map .line)).run (.fresh {})
      ∃ pieces : List Exchange,
        (talk.1.foldl Desk.showTurn emptyDesk).output.out =
          pieces.flatMap Exchange.text ++ "dt> " ++ Bytes.newline ∧
        pieces.flatMap Exchange.report = (Value.text []).describe ++ Bytes.newline ∧
        pieces.flatMap Exchange.printed = Bytes.newline ∧
        pieces.flatMap Exchange.lines = Evaluator.spread := by
  obtain ⟨results, u, hrun, hvalues, -, hprinted⟩ := Evaluator.run_spread
  have hnone : (((Evaluator.standard none).evalSource
      (Bytes.join Bytes.newline Evaluator.spread)).run (.fresh {})).1.2 = none := by rw [hrun]
  have htalk := converse_batch ⟨.standard none, .standard⟩ (Evaluator.standard_isStandard none)
    lex_spread (.fresh {}) hnone emptyDesk
  dsimp only at htalk
  rw [hrun] at htalk
  obtain ⟨-, ⟨pieces, hout, hpieces, -, hmeanwhile, hused⟩, -⟩ := htalk
  refine ⟨hnone, pieces, hout, ?_, hmeanwhile.trans hprinted, hused⟩
  unfold Exchange.report
  rw [← List.flatMap_assoc, hpieces, hvalues]
  exact List.append_nil _

end Respondent
end ChartScript
