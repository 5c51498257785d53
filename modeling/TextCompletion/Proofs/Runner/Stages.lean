import TextCompletion.Runner

/-!
The course of an invocation by its stages. Four of them come before anything is written: a backend
is acquired, the model directory is looked at, a model is loaded, candidates are generated. Main
statement: the first stage that fails decides the outcome, no later one asks the backend for
anything, and nothing is written; if none fails, the line of the first candidate is written whole
and flushed, unless the sink refuses, and then the report says which of the two it refused.
-/

namespace TextCompletion

inductive Stage where
  | acquire
  | directory
  | load
  | generate
  deriving DecidableEq, Repr

namespace Stage

def all : List Stage := [.acquire, .directory, .load, .generate]

def generator? (backend : Except RunError Backend) (i : Invocation) :
    Option (Except Failure Generator) :=
  backend.toOption.map fun b => (b.load i.modelPath).result

def candidates? (backend : Except RunError Backend) (i : Invocation) :
    Option (Except Failure (List Candidate)) :=
  ((generator? backend i).bind Except.toOption).map fun g =>
    (g.generate i.prompt i.params.effective).result

def inferenceError? {α : Type} : Option (Except Failure α) → Option RunError
  | some (.error f) => some (.inference (": ".intercalate f.lines))
  | _ => none

section

variable (t : FileTree) (backend : Except RunError Backend) (i : Invocation)

/-- How a stage fails, given what the stages before hand to it. -/
def error? : Stage → Option RunError
  | .acquire => match backend with | .error e => some e | .ok _ => none
  | .directory => if t.isDirectory i.modelPath then none else some (.directoryNotFound i.modelPath)
  | .load => inferenceError? (generator? backend i)
  | .generate => inferenceError? (candidates? backend i)

def firstError? : Option RunError := all.findSome? (error? t backend i)

/-- Stages up to the first one that fails, which is the last one reached. -/
def upToFailure : List Stage → List Stage
  | [] => []
  | s :: rest => s :: if (error? t backend i s).isSome then [] else upToFailure rest

def call? : Stage → Option BackendCall
  | .load => some (.load i.modelPath)
  | .generate => some (.generate i.prompt i.params.effective)
  | _ => none

end

variable {t : FileTree} {backend : Except RunError Backend} {i : Invocation} {b : Backend}
  {g : Generator} {f : Failure} {e : RunError} {candidates : List Candidate}

theorem upToFailure_of_none {s : Stage} (passes : error? t backend i s = none)
    (rest : List Stage) :
    upToFailure t backend i (s :: rest) = s :: upToFailure t backend i rest := by
  simp [upToFailure, passes]

theorem upToFailure_of_some {s : Stage} (fails : error? t backend i s = some e)
    (rest : List Stage) : upToFailure t backend i (s :: rest) = [s] := by
  simp [upToFailure, fails]

theorem upToFailure_singleton (s : Stage) : upToFailure t backend i [s] = [s] := by
  simp [upToFailure]

theorem error?_acquire_ok : error? t (.ok b) i .acquire = none := rfl

theorem error?_directory :
    error? t backend i .directory =
      if t.isDirectory i.modelPath then none else some (.directoryNotFound i.modelPath) := rfl

theorem error?_directory_of_present (present : t.isDirectory i.modelPath = true) :
    error? t backend i .directory = none := by
  simp [error?_directory, present]

theorem error?_load_error (failing : (b.load i.modelPath).result = .error f) :
    error? t (.ok b) i .load = some (.inference f.message) := by
  simp only [error?, generator?, Except.toOption, Option.map_some, failing, inferenceError?]
  rfl

theorem error?_load_ok (loaded : (b.load i.modelPath).result = .ok g) :
    error? t (.ok b) i .load = none := by
  simp only [error?, generator?, Except.toOption, Option.map_some, loaded, inferenceError?]

theorem candidates?_of_loaded (loaded : (b.load i.modelPath).result = .ok g) :
    candidates? (.ok b) i = some (g.generate i.prompt i.params.effective).result := by
  simp only [candidates?, generator?, Except.toOption, Option.map_some, loaded, Option.bind_some]

theorem error?_generate_error (loaded : (b.load i.modelPath).result = .ok g)
    (failing : (g.generate i.prompt i.params.effective).result = .error f) :
    error? t (.ok b) i .generate = some (.inference f.message) := by
  simp only [error?, candidates?_of_loaded loaded, failing, inferenceError?]
  rfl

theorem error?_generate_ok (loaded : (b.load i.modelPath).result = .ok g)
    (generated : (g.generate i.prompt i.params.effective).result = .ok candidates) :
    error? t (.ok b) i .generate = none := by
  simp only [error?, candidates?_of_loaded loaded, generated, inferenceError?]

theorem firstError?_eq_none (present : t.isDirectory i.modelPath = true)
    (loaded : (b.load i.modelPath).result = .ok g)
    (generated : (g.generate i.prompt i.params.effective).result = .ok candidates) :
    firstError? t (.ok b) i = none := by
  simp only [firstError?, all, List.findSome?_cons, List.findSome?_nil, error?_acquire_ok,
    error?_directory_of_present present, error?_load_ok loaded,
    error?_generate_ok loaded generated]

theorem exitCode_of_inferenceError? {α : Type} {x : Option (Except Failure α)}
    (failed : inferenceError? x = some e) : e.exitCode = 4 := by
  unfold inferenceError? at failed
  split at failed
  · cases failed
    rfl
  · cases failed

end Stage

def chosenText : List Candidate → String
  | [] => ""
  | ⟨some text, _⟩ :: _ => text
  | ⟨none, some text⟩ :: _ => text
  | ⟨none, none⟩ :: _ => ""

theorem outputLine_eq (candidates : List Candidate) :
    outputLine candidates = Text.Utf8.encode (chosenText candidates ++ "\n") := by
  unfold outputLine
  rcases candidates with _ | ⟨⟨_ | generated, _ | summary⟩, rest⟩ <;> rfl

namespace Sink

def HasRoom (s : Sink) (bytes : Bytes) : Prop := ∀ n, s.limit = some n → bytes.length ≤ n

def Unfailing (s : Sink) : Prop := s.limit = none ∧ s.flushRefusal = none

variable {s : Sink} {line : Bytes} {r : RunReport} {n : Nat} {fault : SinkFault}

theorem Unfailing.hasRoom (unfailing : s.Unfailing) (bytes : Bytes) : s.HasRoom bytes := by
  intro n limit
  simp [unfailing.1] at limit

theorem write_of_hasRoom (room : s.HasRoom line) : s.write line = (line, .ok ()) := by
  have whole : s.take line = line := by
    unfold take
    cases limit : s.limit with
    | none => rfl
    | some n => exact List.take_of_length_le (room n limit)
  simp [write, whole]

theorem write_of_limit (limit : s.limit = some n) (short : n < line.length) :
    s.write line = (line.take n, .error ⟨[.writeOutput], .stated s.refusal.message⟩) := by
  have part : s.take line = line.take n := by simp [take, limit]
  have shorter : (line.take n).length ≠ line.length := by
    rw [List.length_take]
    omega
  simp only [write, part, if_neg shorter]

theorem hasRoom_or (s : Sink) (line : Bytes) :
    s.HasRoom line ∨ ∃ n, s.limit = some n ∧ n < line.length := by
  cases limit : s.limit with
  | none => exact .inl fun n bounded => by simp [limit] at bounded
  | some n =>
    by_cases short : n < line.length
    · exact .inr ⟨n, rfl, short⟩
    · refine .inl fun m bounded => ?_
      have same : m = n := by simpa [limit] using bounded.symm
      omega

/-- What becomes of a line that is handed to a sink. -/
structure Delivered (s : Sink) (line : Bytes) (r : RunReport) : Prop where
  written : s.HasRoom line → s.flushRefusal = none →
    r.result = .ok () ∧ r.output = line ∧ r.flushes = 1
  refused : ∀ n, s.limit = some n → n < line.length →
    r.result = .error (.inference ("write output: " ++ s.refusal.message)) ∧
      r.output = line.take n ∧ r.flushes = 0
  unflushed : ∀ fault, s.HasRoom line → s.flushRefusal = some fault →
    r.result = .error (.inference ("flush output: " ++ fault.message)) ∧
      r.output = line ∧ r.flushes = 1

theorem failed_stated (step : Step) (text : String) :
    failed ⟨[step], .stated text⟩ = .error (.inference (step.message ++ ": " ++ text)) := rfl

theorem deliver_delivered (s : Sink) (line : Bytes) {r : RunReport} (fresh : r.flushes = 0) :
    s.Delivered line (s.deliver line r) := by
  refine ⟨fun room quiet => ?_, fun n limit short => ?_, fun fault room noisy => ?_⟩
  · rw [deliver, write_of_hasRoom room]
    simp only [flush, quiet, and_self]
  · have label : Step.writeOutput.message ++ ": " = "write output: " := by decide
    rw [deliver, write_of_limit limit short]
    simp only [failed_stated, label, fresh, and_self]
  · have label : Step.flushOutput.message ++ ": " = "flush output: " := by decide
    rw [deliver, write_of_hasRoom room]
    simp only [flush, noisy, failed_stated, label, and_self]

theorem Delivered.exitCode (delivered : s.Delivered line r) {e : RunError}
    (error : r.result = .error e) : e.exitCode = 4 := by
  rcases s.hasRoom_or line with room | ⟨n, limit, short⟩
  · cases quiet : s.flushRefusal with
    | none =>
      have ok := (delivered.written room quiet).1
      simp [ok] at error
    | some fault =>
      have refusal := (delivered.unflushed fault room quiet).1
      rw [← Except.error.inj (refusal.symm.trans error)]
      rfl
  · have refusal := (delivered.refused n limit short).1
    rw [← Except.error.inj (refusal.symm.trans error)]
    rfl

theorem deliver_calls (s : Sink) (line : Bytes) (r : RunReport) :
    (s.deliver line r).calls = r.calls := by
  unfold deliver
  split
  · rfl
  · split <;> rfl

end Sink

variable {t : FileTree} {backend : Except RunError Backend} {i : Invocation} {sink : Sink}

/-! What a run comes to, by the first stage that fails. -/

theorem run_acquire (e : RunError) : run t (.error e) i sink = { result := .error e } := rfl

theorem run_directory (b : Backend) (missing : t.isDirectory i.modelPath = false) :
    run t (.ok b) i sink = { result := .error (.directoryNotFound i.modelPath) } := by
  simp [run, missing]

theorem run_load {b : Backend} {f : Failure} (present : t.isDirectory i.modelPath = true)
    (failing : (b.load i.modelPath).result = .error f) :
    run t (.ok b) i sink =
      { result := failed f, calls := [.load i.modelPath]
        events := (b.load i.modelPath).events } := by
  simp only [run, present, if_true, Backend.complete, failing]

theorem run_generate {b : Backend} {g : Generator} {f : Failure}
    (present : t.isDirectory i.modelPath = true)
    (loaded : (b.load i.modelPath).result = .ok g)
    (failing : (g.generate i.prompt i.params.effective).result = .error f) :
    run t (.ok b) i sink =
      { result := failed f
        calls := [.load i.modelPath, .generate i.prompt i.params.effective]
        events :=
          (b.load i.modelPath).events ++ [.pipelineReady g.task, .samplingSet i.params.effective] ++
            (g.generate i.prompt i.params.effective).events } := by
  simp only [run, present, if_true, Backend.complete, loaded, failing]

theorem run_deliver {b : Backend} {g : Generator} {candidates : List Candidate} (sink : Sink)
    (present : t.isDirectory i.modelPath = true)
    (loaded : (b.load i.modelPath).result = .ok g)
    (generated : (g.generate i.prompt i.params.effective).result = .ok candidates) :
    sink.Delivered (outputLine candidates) (run t (.ok b) i sink) ∧
      (run t (.ok b) i sink).calls =
        [.load i.modelPath, .generate i.prompt i.params.effective] := by
  simp only [run, present, if_true, Backend.complete, loaded, generated]
  exact ⟨sink.deliver_delivered _ rfl, sink.deliver_calls _ _⟩

/-- What a run reports. -/
structure AllOrNothing (t : FileTree) (backend : Except RunError Backend) (i : Invocation)
    (sink : Sink) (r : RunReport) : Prop where
  /-- The stages up to the first failing one ask what they have to ask, and no other stage does. -/
  calls : r.calls = (Stage.upToFailure t backend i Stage.all).filterMap (Stage.call? i)
  once : r.calls <+: [.load i.modelPath, .generate i.prompt i.params.effective]
  failed : ∀ e, Stage.firstError? t backend i = some e →
    r.result = .error e ∧ r.output = [] ∧ r.flushes = 0
  status : ∀ stage ∈ [Stage.load, Stage.generate], ∀ e,
    Stage.error? t backend i stage = some e → e.exitCode = 4
  passed : Stage.firstError? t backend i = none →
    ∃ candidates, Stage.candidates? backend i = some (.ok candidates) ∧
      sink.Delivered (Text.Utf8.encode (chosenText candidates ++ "\n")) r
  /-- Without a refusal of the sink, an error is that of a stage. -/
  clean : sink.Unfailing → ∀ e, r.result = .error e →
    Stage.firstError? t backend i = some e ∧ r.output = []
  sinkStatus : Stage.firstError? t backend i = none → ∀ e, r.result = .error e → e.exitCode = 4

/-- What a run does not reach has no part in its report. -/
structure StopsShort (t : FileTree) (backend : Except RunError Backend) (i : Invocation)
    (sink : Sink) : Prop where
  unloaded : t.isDirectory i.modelPath = false →
    ∀ b b', run t (.ok b) i sink = run t (.ok b') i sink
  ungenerated : (∃ stage ∈ [Stage.acquire, .directory, .load],
      (Stage.error? t backend i stage).isSome = true) →
    ∀ prompt params, run t backend { i with prompt, params } sink = run t backend i sink
  unwritten : ∀ e, Stage.firstError? t backend i = some e →
    ∀ sink', run t backend i sink' = run t backend i sink

theorem AllOrNothing.of_parts {r : RunReport}
    (calls : r.calls = (Stage.upToFailure t backend i Stage.all).filterMap (Stage.call? i))
    (once : r.calls <+: [.load i.modelPath, .generate i.prompt i.params.effective])
    (failed : ∀ e, Stage.firstError? t backend i = some e →
      r.result = .error e ∧ r.output = [] ∧ r.flushes = 0)
    (passed : Stage.firstError? t backend i = none →
      ∃ candidates, Stage.candidates? backend i = some (.ok candidates) ∧
        sink.Delivered (Text.Utf8.encode (chosenText candidates ++ "\n")) r) :
    AllOrNothing t backend i sink r := by
  refine ⟨calls, once, failed, ?_, passed, ?_, ?_⟩
  · intro stage late e failing
    have inference : stage = .load ∨ stage = .generate := by simpa using late
    rcases inference with rfl | rfl
    · exact Stage.exitCode_of_inferenceError? failing
    · exact Stage.exitCode_of_inferenceError? failing
  · intro unfailing e error
    cases first : Stage.firstError? t backend i with
    | some e' =>
      obtain ⟨error', nothing, -⟩ := failed e' first
      have same : e' = e := Except.error.inj (error'.symm.trans error)
      exact ⟨congrArg some same, nothing⟩
    | none =>
      obtain ⟨candidates, -, delivered⟩ := passed first
      have ok := (delivered.written (unfailing.hasRoom _) unfailing.2).1
      simp [ok] at error
  · intro none e error
    obtain ⟨candidates, -, delivered⟩ := passed none
    exact delivered.exitCode error

section

variable {b : Backend} {g : Generator} {f : Failure}

theorem acquire_reports (t : FileTree) (i : Invocation) (sink : Sink) (e : RunError) :
    AllOrNothing t (.error e) i sink (run t (.error e) i sink) := by
  have first : Stage.firstError? t (.error e) i = some e := rfl
  refine .of_parts rfl List.nil_prefix ?_ (by simp [first])
  intro e' failing
  rw [first] at failing
  simp [run_acquire, Option.some.inj failing]

theorem directory_reports (b : Backend) (sink : Sink)
    (missing : t.isDirectory i.modelPath = false) :
    AllOrNothing t (.ok b) i sink (run t (.ok b) i sink) := by
  have failing : Stage.error? t (.ok b) i .directory = some (.directoryNotFound i.modelPath) := by
    simp [Stage.error?_directory, missing]
  have first : Stage.firstError? t (.ok b) i = some (.directoryNotFound i.modelPath) := by
    simp only [Stage.firstError?, Stage.all, List.findSome?_cons, Stage.error?_acquire_ok, failing]
  have reached : Stage.upToFailure t (.ok b) i Stage.all = [.acquire, .directory] := by
    rw [Stage.all, Stage.upToFailure_of_none Stage.error?_acquire_ok,
      Stage.upToFailure_of_some failing]
  rw [run_directory b missing]
  refine .of_parts (by rw [reached]; rfl) List.nil_prefix ?_ (by simp [first])
  intro e error
  rw [first] at error
  simp [Option.some.inj error]

theorem load_reports (sink : Sink) (present : t.isDirectory i.modelPath = true)
    (failing : (b.load i.modelPath).result = .error f) :
    AllOrNothing t (.ok b) i sink (run t (.ok b) i sink) := by
  have found : Stage.error? t (.ok b) i .directory = none :=
    Stage.error?_directory_of_present present
  have stage := Stage.error?_load_error (t := t) failing
  have first : Stage.firstError? t (.ok b) i = some (.inference f.message) := by
    simp only [Stage.firstError?, Stage.all, List.findSome?_cons, Stage.error?_acquire_ok, found,
      stage]
  have reached : Stage.upToFailure t (.ok b) i Stage.all = [.acquire, .directory, .load] := by
    rw [Stage.all, Stage.upToFailure_of_none Stage.error?_acquire_ok,
      Stage.upToFailure_of_none found, Stage.upToFailure_of_some stage]
  rw [run_load present failing]
  refine .of_parts (by rw [reached]; rfl) ⟨[_], rfl⟩ ?_ (by simp [first])
  intro e error
  rw [first] at error
  simp [failed, Option.some.inj error]

theorem upToFailure_of_loaded (present : t.isDirectory i.modelPath = true)
    (loaded : (b.load i.modelPath).result = .ok g) :
    Stage.upToFailure t (.ok b) i Stage.all = Stage.all := by
  rw [Stage.all, Stage.upToFailure_of_none Stage.error?_acquire_ok,
    Stage.upToFailure_of_none (Stage.error?_directory_of_present present),
    Stage.upToFailure_of_none (Stage.error?_load_ok loaded), Stage.upToFailure_singleton]

theorem generate_reports (sink : Sink) (present : t.isDirectory i.modelPath = true)
    (loaded : (b.load i.modelPath).result = .ok g)
    (failing : (g.generate i.prompt i.params.effective).result = .error f) :
    AllOrNothing t (.ok b) i sink (run t (.ok b) i sink) := by
  have first : Stage.firstError? t (.ok b) i = some (.inference f.message) := by
    simp only [Stage.firstError?, Stage.all, List.findSome?_cons, Stage.error?_acquire_ok,
      Stage.error?_directory_of_present present, Stage.error?_load_ok loaded,
      Stage.error?_generate_error loaded failing]
  rw [run_generate present loaded failing]
  refine .of_parts (by rw [upToFailure_of_loaded present loaded]; rfl) (List.prefix_refl _) ?_
    (by simp [first])
  intro e error
  rw [first] at error
  simp [failed, Option.some.inj error]

theorem deliver_reports {candidates : List Candidate} (sink : Sink)
    (present : t.isDirectory i.modelPath = true)
    (loaded : (b.load i.modelPath).result = .ok g)
    (generated : (g.generate i.prompt i.params.effective).result = .ok candidates) :
    AllOrNothing t (.ok b) i sink (run t (.ok b) i sink) := by
  have first := Stage.firstError?_eq_none present loaded generated
  obtain ⟨delivered, calls⟩ := run_deliver sink present loaded generated
  have once : (run t (.ok b) i sink).calls <+:
      [.load i.modelPath, .generate i.prompt i.params.effective] :=
    calls.symm ▸ List.prefix_refl _
  refine .of_parts ?_ once (by simp [first]) fun _ => ⟨candidates, ?_, ?_⟩
  · rw [upToFailure_of_loaded present loaded, calls]
    rfl
  · rw [Stage.candidates?_of_loaded loaded, generated]
  · exact outputLine_eq candidates ▸ delivered

end

theorem run_reports (t : FileTree) (backend : Except RunError Backend) (i : Invocation)
    (sink : Sink) : AllOrNothing t backend i sink (run t backend i sink) := by
  rcases backend with e | b
  · exact acquire_reports t i sink e
  cases present : t.isDirectory i.modelPath with
  | false => exact directory_reports b sink present
  | true =>
  cases loaded : (b.load i.modelPath).result with
  | error f => exact load_reports sink present loaded
  | ok g =>
  cases generated : (g.generate i.prompt i.params.effective).result with
  | error f => exact generate_reports sink present loaded generated
  | ok candidates => exact deliver_reports sink present loaded generated

theorem run_stopsShort (t : FileTree) (backend : Except RunError Backend) (i : Invocation)
    (sink : Sink) : StopsShort t backend i sink := by
  refine ⟨fun missing b b' => ?_, fun early prompt params => ?_, fun e first sink' => ?_⟩
  · rw [run_directory b missing, run_directory b' missing]
  · rcases backend with e | b
    · rw [run_acquire, run_acquire]
    cases present : t.isDirectory i.modelPath with
    | false =>
      rw [run_directory b present, run_directory b (i := { i with prompt, params }) present]
    | true =>
    cases loaded : (b.load i.modelPath).result with
    | error f =>
      rw [run_load present loaded, run_load (i := { i with prompt, params }) present loaded]
    | ok g =>
      -- none of the three stages fails
      simp [Stage.error?_acquire_ok, Stage.error?_directory_of_present present,
        Stage.error?_load_ok loaded] at early
  · rcases backend with e' | b
    · rw [run_acquire, run_acquire]
    cases present : t.isDirectory i.modelPath with
    | false => rw [run_directory b present, run_directory b present]
    | true =>
    cases loaded : (b.load i.modelPath).result with
    | error f => rw [run_load present loaded, run_load present loaded]
    | ok g =>
    cases generated : (g.generate i.prompt i.params.effective).result with
    | error f => rw [run_generate present loaded generated, run_generate present loaded generated]
    | ok candidates =>
      simp [Stage.firstError?_eq_none present loaded generated] at first

/-- The first stage that fails decides, and what comes after it is neither done nor looked at; if
none fails, the sink is handed the line. -/
theorem run_allOrNothing (t : FileTree) (backend : Except RunError Backend) (i : Invocation)
    (sink : Sink) :
    AllOrNothing t backend i sink (run t backend i sink) ∧ StopsShort t backend i sink :=
  ⟨run_reports t backend i sink, run_stopsShort t backend i sink⟩

end TextCompletion
