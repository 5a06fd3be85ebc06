import CompressionSweep.Proofs.RoundTrip

/-! A store that is used again and again while steps of its writes fail. Memory goes on, the file
stays where the last successful write left it, and the next success brings both together. -/

namespace CompressionSweep.Store

/-- What a store can be asked for. -/
inductive Request where
  | append (a : Algorithm) (run : UInt32) (m : Measurement)
  | flush

/-- A request that has been carried out, with the store and the files before and after it. -/
structure Step where
  request : Request
  faults : Faults
  before : Store × Tree
  result : Except SaveError Unit
  after : Store × Tree

namespace Request

def file (d : Document) : Request → Document
  | .append a run m => d.append a.name run m
  | .flush => d

def perform (faults : Faults) (x : Store × Tree) : Request → Store × Except SaveError Unit × Tree
  | .append a run m => x.1.append faults a run m x.2
  | .flush => (x.1, x.1.flush faults x.2)

def step (r : Request) (faults : Faults) (x : Store × Tree) : Step :=
  let done := r.perform faults x
  ⟨r, faults, x, done.2.1, done.1, done.2.2⟩

end Request

/-- The steps of a sequence of requests, each with the faults of its write. -/
def history : Store × Tree → List (Request × Faults) → List Step
  | _, [] => []
  | x, (r, faults) :: rs => r.step faults x :: history (r.step faults x).after rs

/-- Where the steps lead that begin at `x`. -/
def reached (x : Store × Tree) (steps : List Step) : Store × Tree :=
  (steps.getLast?.map (·.after)).getD x

/-- The document of the last step that succeeded, as it was then. -/
def saved? (steps : List Step) : Option Document :=
  (steps.filter (·.result.toBool)).getLast?.map (·.after.1.document)

theorem reached_cons (x : Store × Tree) (step : Step) (steps : List Step) :
    reached x (step :: steps) = reached step.after steps := by
  rw [reached, List.getLast?_cons, Option.map_some, Option.getD_some, reached]
  cases steps.getLast? <;> rfl

theorem saved?_cons (step : Step) (steps : List Step) :
    saved? (step :: steps) = (saved? steps).or
      (if step.result.toBool then some step.after.1.document else none) := by
  rw [saved?, saved?, List.filter_cons]
  split
  · rw [List.getLast?_cons]
    cases (steps.filter (·.result.toBool)).getLast? <;> rfl
  · rw [Option.or_none]

/-- A write changes nothing, or none of its steps fails and only the file is different. -/
theorem flush_cases (d : Document) (path : String) (faults : Faults) (t : Tree) :
    (∃ e, (⟨d, some path⟩ : Store).flush faults t = (.error ⟨path, e⟩, t)) ∨
      ∃ t', (⟨d, some path⟩ : Store).flush faults t = (.ok (), t') ∧ (∀ s, faults s = none) ∧
        t'.read path = .ok d.encode ∧ ∃ place, t' = t.put place (.file d.encode false) := by
  unfold flush
  dsimp only
  split
  · rename_i t' hsave
    exact .inr ⟨t', rfl, Tree.no_fault_of_save hsave, Tree.read_of_save hsave,
      Tree.eq_put_of_save hsave⟩
  · rename_i e t' hsave
    obtain rfl := Tree.eq_of_save_error hsave
    exact .inl ⟨e, rfl⟩

section Step

variable {x : Store × Tree} {path : String}

theorem perform_eq (r : Request) (faults : Faults) (x : Store × Tree) :
    let s : Store := ⟨r.file x.1.document, x.1.path⟩
    r.perform faults x = (s, s.flush faults x.2) := by
  cases r <;> rfl

theorem step_store (r : Request) (faults : Faults) :
    (r.step faults x).after.1 = ⟨r.file x.1.document, x.1.path⟩ :=
  congrArg Prod.fst (perform_eq r faults x)

theorem step_cases (hx : x.1.path = some path) (r : Request) (faults : Faults) :
    let step := r.step faults x
    (∃ e, step.result = .error e ∧ step.after.2 = x.2) ∨
      step.result = .ok () ∧ (∀ s, faults s = none) ∧
        step.after.2.read path = .ok step.after.1.document.encode ∧
        ∃ place, step.after.2 = x.2.put place (.file step.after.1.document.encode false) := by
  simp only [Request.step, perform_eq, hx]
  rcases flush_cases (r.file x.1.document) path faults x.2 with ⟨e, he⟩ | ⟨t', ht', hok⟩
  · rw [he]
    exact .inl ⟨_, rfl, rfl⟩
  · rw [ht']
    exact .inr ⟨rfl, hok⟩

end Step

theorem mem_history {path : String} {rs : List (Request × Faults)} {x : Store × Tree}
    (hx : x.1.path = some path) {step : Step} (h : step ∈ history x rs) :
    ∃ r faults y, y.1.path = some path ∧ step = Request.step r faults y := by
  induction rs generalizing x with
  | nil => exact absurd h List.not_mem_nil
  | cons r rs ih =>
    rcases List.mem_cons.mp h with rfl | h
    · exact ⟨r.1, r.2, x, hx, rfl⟩
    · exact ih (by rw [step_store]; exact hx) h

theorem reached_store (x : Store × Tree) (rs : List (Request × Faults)) :
    (reached x (history x rs)).1 =
      ⟨(rs.map (·.1)).foldl Request.file x.1.document, x.1.path⟩ := by
  induction rs generalizing x with
  | nil => rfl
  | cons r rs ih => rw [history, reached_cons, ih, step_store]; rfl

theorem read_reached {path : String} (rs : List (Request × Faults)) {x : Store × Tree}
    (hx : x.1.path = some path) :
    (reached x (history x rs)).2.read path =
      match saved? (history x rs) with
      | none => x.2.read path
      | some d => .ok d.encode := by
  induction rs generalizing x with
  | nil => rfl
  | cons r rs ih =>
    have hafter := @ih (r.1.step r.2 x).after (by rw [step_store]; exact hx)
    rw [history, reached_cons, hafter, saved?_cons]
    cases saved? (history (r.1.step r.2 x).after rs) with
    | some d => rfl
    | none =>
      -- No later step has succeeded, so the file is as this one left it.
      rcases step_cases hx r.1 r.2 with ⟨e, he, htree⟩ | ⟨hok, -, hread, -⟩
      · rw [he, htree]
        rfl
      · rw [hok, hread]
        rfl

/-- A store in use. A request that fails leaves all files as they were, so that no directory lists
anything else. One that succeeds, which it does not if a step of its write fails, leaves the whole
document in the file and changes nothing but this file. Either way a measurement is filed in memory.
So after any sequence of requests memory holds every measurement, and the file the document of the
last request that succeeded, or what was there before if there was none. -/
theorem persistence_atomic (d : Document) (path : String) (t : Tree)
    (requests : List (Request × Faults)) :
    let x : Store × Tree := (⟨d, some path⟩, t)
    let steps := history x requests
    (∀ step ∈ steps,
      step.after.1 = ⟨step.request.file step.before.1.document, some path⟩ ∧
      (∀ e, step.result = .error e → step.after.2 = step.before.2) ∧
      (step.result = .ok () → step.after.2.read path = .ok step.after.1.document.encode ∧
        ∃ place, step.after.2 =
          step.before.2.put place (.file step.after.1.document.encode false)) ∧
      ((∃ s e, step.faults s = some e) → step.result ≠ .ok ())) ∧
    (reached x steps).1 = ⟨(requests.map (·.1)).foldl Request.file d, some path⟩ ∧
    (reached x steps).2.read path =
      match saved? steps with
      | none => t.read path
      | some saved => .ok saved.encode := by
  intro x steps
  refine ⟨fun step hstep => ?_, reached_store x requests, read_reached requests rfl⟩
  obtain ⟨r, faults, y, hy, rfl⟩ := mem_history (rfl : x.1.path = some path) hstep
  refine ⟨by rw [step_store, hy]; rfl, ?_⟩
  rcases step_cases hy r faults with ⟨e, he, htree⟩ | ⟨hok, hno, hread, hput⟩
  · rw [he]
    exact ⟨fun _ _ => htree, nofun, fun _ => nofun⟩
  · rw [hok]
    refine ⟨nofun, fun _ => ⟨hread, hput⟩, ?_⟩
    rintro ⟨s, e, hs⟩
    cases (hno s).symm.trans hs

/-- A write that breaks off in the middle of the document, one that succeeds, and one without a
temporary file. -/
def sampleRequests : List (Request × Faults) :=
  [(.append .gzip 1 ⟨"a.jfr", 1.5, 3⟩, fun s => if s = .writeText then some ⟨.busy, 20⟩ else none),
    (.append .gzip 2 ⟨"b.jfr", 2.5, 4⟩, Faults.none),
    (.flush, fun s => if s = .create then some ⟨.permissionDenied, 0⟩ else none)]

/-- What a failed append has left out of the file, the next success brings there. -/
theorem persistence_atomic_sample :
    let x : Store × Tree := (⟨Document.new "t" "default" 2 none .gzip, some "r.json"⟩, ⟨[], []⟩)
    let steps := history x sampleRequests
    steps.map (·.result.toBool) = [false, true, false] ∧
    (reached x steps).1.document.compressions =
      [⟨"GZIP", [⟨1, [⟨"a.jfr", 1.5, 3⟩]⟩, ⟨2, [⟨"b.jfr", 2.5, 4⟩]⟩]⟩] ∧
    (reached x steps).2.read "r.json" = .ok (reached x steps).1.document.encode := by
  intro x steps
  obtain ⟨-, -, hfile⟩ := persistence_atomic (Document.new "t" "default" 2 none .gzip) "r.json"
    ⟨[], []⟩ sampleRequests
  have hsaved : saved? steps = some (reached x steps).1.document := by decide +kernel
  refine ⟨by decide +kernel, by decide +kernel, ?_⟩
  exact hfile.trans (by rw [hsaved])

end CompressionSweep.Store
