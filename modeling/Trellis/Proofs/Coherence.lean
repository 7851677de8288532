import Trellis.Proofs.Moves
import Trellis.Proofs.Prompt

/-!
# One sink and all who use it

The scanner, the parser and the runner all report to one sink, in any order, and it can be cleared at any
time. Whatever they do, it comes down to diagnostics that are added one after another; so the error flag
is never out of step with the diagnostics that are held, and what is written tells all that were ever
added.

* `Sink.Adds`: diagnostics are added to a sink; `Sink.Told`: what is written tells them;
* `adds_perform`, `adds_run` and their like: adding is all that a move of a parser or a run does;
* `Sink.Use`, `Sink.use`: what can be done with a sink; `Use.steps`: a prompt is a reset and a run for
  each line;
* `Sink.Coherent`: flag, diagnostics and text agree; `coherent_use`: a step keeps them so;
* `Sink.uses_coherent`: **they agree after all uses**.
-/

namespace Trellis

namespace Sink

/-! ## What is written

A sink that traces writes more than headlines, but the lines of the log are kept apart from those of the
stream. -/

/-- What is written about diagnostics. -/
def headlines (ds : List Diagnostic) : String := String.join (ds.map fun d => d.headline ++ "\n")

/-- Lines that tell diagnostics in order, unless the sink is silent; where it traces, lines of the log stand
in between. -/
inductive Tells (stamp : Option String) (silent : Bool) : List Diagnostic → List Entry → Prop
  | nil : Tells stamp silent [] []
  | headline {ds : List Diagnostic} {lines : List Entry} (h : Tells stamp silent ds lines)
      (d : Diagnostic) : Tells stamp silent (ds ++ [d]) (lines ++ if silent then [] else [.headline d])
  | trace {ds : List Diagnostic} {lines : List Entry} {time : String} (h : Tells stamp silent ds lines)
      (htime : stamp = some time) (part message : String) :
      Tells stamp silent ds (lines ++ [.progress time part message])

/-- What is written tells these diagnostics. -/
def Told (s : Sink) (ds : List Diagnostic) : Prop := Tells s.stamp s.silent ds s.entries

variable {s t u : Sink} {ds es ever : List Diagnostic}

theorem headlines_append (ds es : List Diagnostic) :
    headlines (ds ++ es) = headlines ds ++ headlines es := by
  rw [headlines, List.map_append, String.join_append]
  rfl

/-- On the stream there is nothing but the headlines. -/
theorem Told.written (h : s.Told ds) : s.written = if s.silent then "" else headlines ds := by
  unfold Told at h
  unfold Sink.written
  generalize s.entries = lines at h ⊢
  induction h with
  | nil => simp [headlines]
  | headline _ d ih =>
    rw [List.map_append, String.join_append, ih, headlines_append]
    split <;> simp [Entry.onStream, Entry.text, headlines]
  | trace _ _ _ _ ih =>
    rw [List.map_append, String.join_append, ih]
    exact String.append_empty

/-- Without a log, a console shows the stream. -/
theorem Told.console (h : s.Told ds) (hs : s.stamp = none) : s.console = s.written := by
  unfold Told at h
  unfold Sink.written Sink.console
  generalize s.entries = lines at h ⊢
  induction h with
  | nil => rfl
  | headline _ d ih =>
    rw [List.map_append, List.map_append, String.join_append, String.join_append, ih]
    split <;> rfl
  | trace _ htime =>
    rw [hs] at htime
    cases htime

theorem told_trace (h : s.Told ds) (part message : String) : (s.trace part message).Told ds := by
  unfold trace
  split
  · exact h
  · rename_i time htime
    exact h.trace htime part message

theorem told_writeHeadline (h : s.Told ds) (d : Diagnostic) : (s.writeHeadline d).Told (ds ++ [d]) := by
  have hd := Tells.headline h d
  unfold writeHeadline
  split
  · rename_i hsilent
    rwa [if_pos hsilent, List.append_nil] at hd
  · rename_i hsilent
    rwa [if_neg hsilent] at hd

theorem told_add (h : s.Told ds) (d : Diagnostic) : (s.add d).Told (ds ++ [d]) := by
  let recorded : Sink :=
    { s with diagnostics := s.diagnostics ++ [d], hadError := s.hadError || d.isError }
  have hrecorded : recorded.Told ds := h
  exact told_writeHeadline (told_trace hrecorded _ _) d

/-! ## Adding diagnostics -/

/-- Diagnostics are added to a sink one after another; it may trace meanwhile. -/
inductive Adds (s : Sink) : List Diagnostic → Sink → Prop
  | nil : Adds s [] s
  | add {ds : List Diagnostic} {t : Sink} (h : Adds s ds t) (d : Diagnostic) :
      Adds s (ds ++ [d]) (t.add d)
  | trace {ds : List Diagnostic} {t : Sink} (h : Adds s ds t) (part message : String) :
      Adds s ds (t.trace part message)

theorem Adds.diagnostics (h : s.Adds ds t) : t.diagnostics = s.diagnostics ++ ds := by
  induction h with
  | nil => exact (List.append_nil _).symm
  | add _ d ih => rw [diagnostics_add, ih, List.append_assoc]
  | trace _ _ _ ih => rw [diagnostics_trace, ih]

theorem Adds.hadError (h : s.Adds ds t) : t.hadError = (s.hadError || ds.any (·.isError)) := by
  induction h with
  | nil => simp
  | add _ d ih => rw [hadError_add, ih, List.any_append, Bool.or_assoc]; simp
  | trace _ _ _ ih => rw [hadError_trace, ih]

theorem Adds.fresh (h : s.Adds ds t) : t.fresh = s.fresh := by
  induction h with
  | nil => rfl
  | add _ d ih => rw [fresh_add, ih]
  | trace _ _ _ ih => rw [fresh_trace, ih]

theorem silent_of_fresh (h : t.fresh = s.fresh) : t.silent = s.silent := (congrArg Sink.silent h :)

theorem stamp_of_fresh (h : t.fresh = s.fresh) : t.stamp = s.stamp := (congrArg Sink.stamp h :)

/-- What is written goes on to tell the diagnostics that are added. -/
theorem Adds.told (h : s.Adds ds t) (hs : s.Told ever) : t.Told (ever ++ ds) := by
  induction h with
  | nil => rwa [List.append_nil]
  | add _ d ih =>
    rw [← List.append_assoc]
    exact told_add ih d
  | trace _ part message ih => exact told_trace ih part message

theorem Adds.trans (h : s.Adds ds t) (h' : t.Adds es u) : s.Adds (ds ++ es) u := by
  induction h' with
  | nil => rwa [List.append_nil]
  | add _ d ih =>
    rw [← List.append_assoc]
    exact ih.add d
  | trace _ part message ih => exact ih.trace part message

theorem adds_addAll (s : Sink) (ds : List Diagnostic) : s.Adds ds (s.addAll ds) := by
  induction ds generalizing s with
  | nil => exact .nil
  | cons d ds ih => exact (Adds.nil.add d).trans (ih (s.add d))

end Sink

/-! ## All that is done comes down to it -/

open Sink (Adds)

theorem adds_reportTo (found : Scan) (s : Sink) :
    s.Adds (found.errors.map LexicalError.diagnostic) (found.reportTo s) :=
  (s.adds_addAll _).trace _ _

/-- The move clears the sink. -/
def Move.clears : Move → Bool
  | .resetSink => true
  | _ => false

namespace Parser

variable (p : Parser)

theorem adds_runRule (r : Rule) : ∃ ds, p.sink.Adds ds (p.runRule r).2.sink := by
  unfold runRule
  split
  · exact ⟨[], .nil⟩
  · exact ⟨_, Adds.nil.add _⟩

theorem adds_parse : ∃ ds, p.sink.Adds ds p.parse.2.sink := by
  obtain ⟨ds, hds⟩ := adds_runRule { p with depth := 0 } .expression
  unfold parse
  split <;> rename_i hrun <;> rw [hrun] at hds
  · exact ⟨ds, hds⟩
  · rw [sink_synchronize]
    exact ⟨ds, hds.trace _ _⟩

theorem adds_consume (kind : TokenKind) (message : String) :
    ∃ ds, p.sink.Adds ds (p.consume kind message).2.sink := by
  unfold consume
  split
  · split
    · exact ⟨[], .nil⟩
    · exact ⟨_, Adds.nil.add _⟩
  · exact ⟨_, Adds.nil.add _⟩

theorem adds_perform {m : Move} (hm : m.clears = false) : ∃ ds, p.sink.Adds ds (p.perform m).2.sink := by
  cases m with
  | parse => exact p.adds_parse
  | rule r => exact p.adds_runRule r
  | advance =>
    simp only [perform, advance]
    split <;> exact ⟨[], .nil⟩
  | matchAny kinds =>
    simp only [perform, matchAny]
    split <;> exact ⟨[], .nil⟩
  | consume kind message => exact p.adds_consume kind message
  | synchronize =>
    simp only [perform, sink_synchronize]
    exact ⟨[], .nil⟩
  | resetSink => cases hm
  | peek | previous | isAtEnd | check | setCurrent | setTokens => exact ⟨[], .nil⟩

end Parser

theorem adds_parseTokens (ts : List Token) (s : Sink) : ∃ ds, s.Adds ds (parseTokens ts s).2 :=
  ({ tokens := ts, sink := s } : Parser).adds_parse

theorem adds_parseSource (source : String) (s : Sink) : ∃ ds, s.Adds ds (parseSource source s).2 := by
  obtain ⟨ds, hds⟩ := adds_parseTokens (scan source).tokens ((scan source).reportTo s)
  exact ⟨_, (adds_reportTo (scan source) s).trans hds⟩

theorem Runner.adds_run (r : Runner) (source : String) :
    ∃ ds, r.sink.Adds ds (r.run source).2.sink := by
  rcases r.run_cases source with h | h
  · rw [h]
    exact ⟨_, adds_reportTo (scan source) r.sink⟩
  · rw [h]
    exact adds_parseSource source r.sink

/-! ## Uses -/

/-- What can be done with a sink. The scanner, the parser and the runner that share it may be in any
state otherwise. -/
inductive Use where
  | report (line : Int) (message location : String)
  | add (d : Diagnostic)
  | reset
  | scan (scanner : Scanner)
  | move (parser : Parser) (m : Move)
  | parse (source : String)
  | run (showTokens : Bool) (source : String)
  | prompt (showTokens : Bool) (input : Input)

namespace Use

/-- The sink is cleared: at once, by a parser, or before each line of a prompt. -/
def resets : Use → Bool
  | .reset | .prompt .. => true
  | .move _ m => m.clears
  | _ => false

/-- The steps of a use. A prompt resets the sink before it runs a line; every other use is one step. -/
def steps : Use → List Use
  | .prompt showTokens input =>
    (Text.inputLines input.text).flatMap fun line => [.reset, .run showTokens line]
  | u => [u]

/-- The use is one step. -/
def isStep : Use → Bool
  | .prompt .. => false
  | _ => true

theorem isStep_of_mem_steps {u v : Use} (h : v ∈ u.steps) : v.isStep = true := by
  cases u with
  | prompt showTokens input =>
    simp only [steps, List.mem_flatMap, List.mem_cons, List.not_mem_nil, or_false] at h
    obtain ⟨line, -, rfl | rfl⟩ := h <;> rfl
  | _ =>
    rw [List.mem_singleton.1 h]
    rfl

end Use

namespace Sink

/-- The sink after a use. -/
def use (s : Sink) : Use → Sink
  | .report line message location => s.report line message location
  | .add d => s.add d
  | .reset => s.reset
  | .scan scanner => { scanner with sink := s : Scanner }.tokenize.sink
  | .move parser m => ({ parser with sink := s }.perform m).2.sink
  | .parse source => (parseSource source s).2
  | .run showTokens source => ({ sink := s, showTokens : Runner }.run source).2.sink
  | .prompt showTokens input => ({ sink := s, showTokens : Runner }.prompt input).2.2.sink

/-- The diagnostics that a step adds. -/
def added (s : Sink) (u : Use) : List Diagnostic :=
  (s.use u).diagnostics.drop s.diagnostics.length

/-- All diagnostics that are ever added by steps one after another. -/
def everAdded (s : Sink) : List Use → List Diagnostic
  | [] => []
  | u :: us => s.added u ++ (s.use u).everAdded us

/-- Error flag, diagnostics and text of a sink agree, where `ever` are all diagnostics that were ever
added. -/
structure Coherent (s : Sink) (ever : List Diagnostic) : Prop where
  flag : s.hadError = true ↔ ∃ d ∈ s.diagnostics, d.severity = "error"
  errors : s.errors = s.diagnostics.filter (·.severity = "error")
  /-- The diagnostics that are held are the latest. -/
  held : s.diagnostics <:+ ever
  told : s.Told ever

variable {s t : Sink} {u : Use} {ds ever : List Diagnostic}

/-! ### One step -/

theorem adds_use (h : u.resets = false) : ∃ ds, s.Adds ds (s.use u) := by
  cases u with
  | report line message location => exact ⟨_, Adds.nil.add _⟩
  | add d => exact ⟨_, Adds.nil.add d⟩
  | reset | prompt => cases h
  | scan scanner => exact ⟨_, adds_reportTo _ s⟩
  | move parser m => exact Parser.adds_perform { parser with sink := s } h
  | parse source => exact adds_parseSource source s
  | run showTokens source => exact Runner.adds_run { sink := s, showTokens } source

theorem use_of_resets (h : u.resets = true) (hu : u.isStep = true) : s.use u = s.reset := by
  cases u with
  | reset => rfl
  | move parser m =>
    cases m with
    | resetSink => rfl
    | _ => cases h
  | prompt => cases hu
  | _ => cases h

theorem coherent_start (silent : Bool) (stamp : Option String) :
    Coherent { silent, stamp } [] := by
  constructor
  · simp
  · rfl
  · exact List.suffix_rfl
  · exact .nil

theorem any_isError_iff (ds : List Diagnostic) :
    ds.any (·.isError) = true ↔ ∃ d ∈ ds, d.severity = "error" := by
  simp [Diagnostic.isError]

theorem errors_eq (s : Sink) : s.errors = s.diagnostics.filter (·.severity = "error") := by
  apply List.filter_congr
  intro d _
  rfl

theorem Adds.coherent (h : s.Adds ds t) (hs : s.Coherent ever) : t.Coherent (ever ++ ds) := by
  constructor
  · rw [h.hadError, h.diagnostics, Bool.or_eq_true, hs.flag, any_isError_iff]
    simp only [List.mem_append, or_and_right, exists_or]
  · exact t.errors_eq
  · obtain ⟨before, rfl⟩ := hs.held
    exact ⟨before, by rw [h.diagnostics, List.append_assoc]⟩
  · exact h.told hs.told

theorem coherent_reset (hs : s.Coherent ever) : s.reset.Coherent ever := by
  constructor
  · simp [reset]
  · rfl
  · exact List.nil_suffix
  · exact hs.told

theorem adds_added (s : Sink) (h : u.resets = false) : s.Adds (s.added u) (s.use u) := by
  obtain ⟨ds, hds⟩ := adds_use (s := s) h
  rwa [added, hds.diagnostics, List.drop_left]

/-- One step resets the sink and adds nothing, or it adds diagnostics. -/
theorem use_cases (s : Sink) (hu : u.isStep = true) :
    s.use u = s.reset ∧ s.added u = [] ∨ s.Adds (s.added u) (s.use u) := by
  cases h : u.resets with
  | true =>
    have hreset := use_of_resets (s := s) h hu
    refine .inl ⟨hreset, ?_⟩
    rw [added, hreset]
    exact List.drop_nil
  | false => exact .inr (s.adds_added h)

theorem coherent_use (hu : u.isStep = true) (hs : s.Coherent ever) :
    (s.use u).Coherent (ever ++ s.added u) := by
  rcases s.use_cases hu with ⟨hreset, hadded⟩ | hadds
  · rw [hreset, hadded, List.append_nil]
    exact coherent_reset hs
  · exact hadds.coherent hs

theorem fresh_use (hu : u.isStep = true) : (s.use u).fresh = s.fresh := by
  rcases s.use_cases hu with ⟨hreset, -⟩ | hadds
  · rw [hreset]
    rfl
  · exact hadds.fresh

/-! ### Many steps -/

theorem coherent_steps {us : List Use} (hu : ∀ u ∈ us, u.isStep = true) (hs : s.Coherent ever) :
    (us.foldl use s).Coherent (ever ++ s.everAdded us) ∧ (us.foldl use s).fresh = s.fresh := by
  induction us generalizing s ever with
  | nil =>
    rw [everAdded, List.append_nil]
    exact ⟨hs, rfl⟩
  | cons u us ih =>
    obtain ⟨hu, hus⟩ := List.forall_mem_cons.1 hu
    obtain ⟨hcoherent, hfresh⟩ := ih hus (coherent_use hu hs)
    rw [everAdded, ← List.append_assoc]
    exact ⟨hcoherent, hfresh.trans (fresh_use hu)⟩

/-- The lines of a prompt are run one after another, each with a sink that is cleared. -/
theorem sink_promptLines (r : Runner) (lines : List String) : (r.promptLines lines).2.sink =
    (lines.flatMap fun line => [.reset, .run r.showTokens line]).foldl use r.sink := by
  induction lines generalizing r with
  | nil => rfl
  | cons line lines ih =>
    have htokens : (r.runLine line).2.showTokens = r.showTokens :=
      (congrArg Runner.showTokens (r.fresh_runLine line) :)
    rw [Runner.promptLines, ih, htokens]
    rfl

theorem use_steps (s : Sink) (u : Use) : u.steps.foldl use s = s.use u := by
  cases u with
  | prompt showTokens input => exact (sink_promptLines { sink := s, showTokens } _).symm
  | _ => rfl

theorem uses_steps (s : Sink) (us : List Use) :
    (us.flatMap Use.steps).foldl use s = us.foldl use s := by
  rw [List.foldl_flatMap]
  simp only [use_steps]

/-- **The flag, the list and the text of a sink never drift apart.** Whatever is done with a new sink, the
error flag is set exactly if an error is held, and what is written tells all diagnostics that were ever
added, in order, or nothing if the sink is silent; what is traced is kept apart from it, and there is
nothing of it without a stamp. Only a reset takes diagnostics away. -/
theorem uses_coherent (silent : Bool) (stamp : Option String) (us : List Use) :
    let start : Sink := { silent, stamp }
    let steps := us.flatMap Use.steps
    let s := us.foldl use start
    let ever := start.everAdded steps
    steps.foldl use start = s ∧ (∀ u ∈ steps, u.isStep = true) ∧ s.fresh = start ∧
    s.Coherent ever ∧ s.written = (if silent then "" else headlines ever) ∧
    (stamp = none → s.console = s.written) ∧
    ∀ u, u.resets = false → (s.use u).diagnostics = s.diagnostics ++ s.added u := by
  intro start steps s ever
  have hsteps : ∀ u ∈ steps, u.isStep = true := by
    intro u hu
    obtain ⟨v, -, hv⟩ := List.mem_flatMap.1 hu
    exact Use.isStep_of_mem_steps hv
  obtain ⟨hcoherent, hfresh⟩ := coherent_steps hsteps (coherent_start silent stamp)
  rw [uses_steps] at hcoherent hfresh
  have hwritten : s.written = if silent then "" else headlines ever := by
    have hsilent : s.silent = silent := silent_of_fresh hfresh
    rw [hcoherent.told.written, hsilent]
    rfl
  have hconsole : stamp = none → s.console = s.written :=
    fun hstamp => hcoherent.told.console ((stamp_of_fresh hfresh).trans hstamp)
  exact ⟨uses_steps start us, hsteps, hfresh, hcoherent, hwritten, hconsole,
    fun u hu => (s.adds_added hu).diagnostics⟩

/-- A warning, a prompt with an error on its first line and an error; and then a run. -/
theorem warning_before_prompt :
    let us : List Use := [.add { message := "odd", line := 1, severity := "warning" },
      .prompt false { text := "@\n1" }, .report 3 "late" ""]
    let s := us.foldl use {}
    let u := Use.run false "("
    u.resets = false ∧ (s.use u).diagnostics = s.diagnostics ++ s.added u ∧ s.console = s.written ∧
    s.written =
      "[line 1] Warning: odd\n[line 1] Error: Unexpected character: @\n[line 3] Error: late\n" := by
  intro us s u
  have hu : u.resets = false := rfl
  obtain ⟨-, -, -, -, hwritten, hconsole, hkept⟩ := uses_coherent false none us
  have hever : headlines (({} : Sink).everAdded (us.flatMap Use.steps)) =
      "[line 1] Warning: odd\n[line 1] Error: Unexpected character: @\n[line 3] Error: late\n" := by
    decide +kernel
  exact ⟨hu, hkept u hu, hconsole rfl, hwritten.trans hever⟩

end Sink

end Trellis
