import CompressionSweep.Program
import CompressionSweep.Proofs.Sweep.Control
import CompressionSweep.Proofs.Sweep.Invariant
import Mathlib.Data.List.Nodup

/-! How a program ends that has been asked for a sweep. A setup that is refused ends it before
anything has happened. After that only one thing is fatal, a line of a tool that cannot be shown;
calls, writes and the report may fail as they like. -/

namespace CompressionSweep

variable {ω ω' : Type}

/-- What a program has to do with its outside, apart from the files. -/
inductive Contact where
  | called (i : Invocation) (r : Response)
  | shown (ok : Bool)
  deriving DecidableEq

def Contact.call? : Contact → Option (Invocation × Response)
  | .called i r => some (i, r)
  | .shown _ => none

/-- The same outside, with a record of what a program has had to do with it. -/
def Outside.watched (o : Outside ω) : Outside (ω × List Contact) where
  call i limit t w :=
    let r := o.call i limit t w.1
    (r.1, r.2.1, r.2.2, w.2 ++ [.called i r.1])
  faults w := ((o.faults w.1).1, (o.faults w.1).2, w.2)
  show? w := ((o.show? w.1).1, (o.show? w.1).2, w.2 ++ [.shown (o.show? w.1).1])

namespace Program

def Scene.map (f : ω' → ω) (s : Scene ω') : Scene ω :=
  ⟨s.tree, f s.outside, s.shown, s.crashed⟩

/-! A record changes nothing. -/

theorem showLines_watched (o : Outside ω) (lines : List String) (s : Scene (ω × List Contact)) :
    showLines o lines (s.map Prod.fst) =
      ((showLines o.watched lines s).1, (showLines o.watched lines s).2.map Prod.fst) := by
  induction lines generalizing s with
  | nil => rfl
  | cons line lines ih =>
    cases hshow : o.show? s.outside.1 with
    | mk ok outside =>
      have hwatched : o.watched.show? s.outside = (ok, outside, s.outside.2 ++ [.shown ok]) := by
        simp [Outside.watched, hshow]
      have hplain : o.show? (s.map Prod.fst).outside = (ok, outside) := hshow
      rw [showLines, showLines, hwatched, hplain]
      cases ok with
      | false => rfl
      | true =>
        have hrest := ih ⟨s.tree, (outside, s.outside.2 ++ [.shown true]), line :: s.shown, s.crashed⟩
        exact congrArg (fun x => (x.1 + 1, x.2)) hrest

theorem heard_map (f : ω' → ω) (response : Response) (n : Nat) (s : Scene ω') :
    heard response n (s.map f) =
      ((heard response n s).1, (heard response n s).2.map f) := by
  unfold heard
  split <;> rfl

theorem answer_watched (o : Outside ω) (limit : Option Nat) (i : Invocation)
    (s : Scene (ω × List Contact)) : answer o limit i (s.map Prod.fst) =
      ((answer o.watched limit i s).1, (answer o.watched limit i s).2.map Prod.fst) := by
  let r := o.call i limit s.tree s.outside.1
  let called : Scene (ω × List Contact) :=
    ⟨r.2.1, (r.2.2, s.outside.2 ++ [.called i r.1]), s.shown, s.crashed⟩
  have hlines := showLines_watched o r.1.lines called
  have hheard := heard_map Prod.fst r.1 (showLines o.watched r.1.lines called).1
    (showLines o.watched r.1.lines called).2
  unfold answer
  by_cases hcrashed : s.crashed.isSome = true
  · have hplain : (s.map Prod.fst).crashed.isSome = true := hcrashed
    rw [if_pos hplain, if_pos hcrashed]
  · have hplain : ¬ (s.map Prod.fst).crashed.isSome = true := hcrashed
    rw [if_neg hplain, if_neg hcrashed]
    refine Eq.trans ?_ hheard
    exact congrArg (fun x => heard r.1 x.1 x.2) hlines

theorem persist_watched (o : Outside ω) (path : String) (d : Document)
    (s : Scene (ω × List Contact)) : persist o path d (s.map Prod.fst) =
      ((persist o.watched path d s).1, (persist o.watched path d s).2.map Prod.fst) := by
  have hwrite : ∀ s : Scene (ω × List Contact), write o path d (s.map Prod.fst) =
      ((write o.watched path d s).1, (write o.watched path d s).2.map Prod.fst) := fun _ => rfl
  obtain ⟨tree, outside, shown, crashed⟩ := s
  match crashed with
  | none => exact hwrite _
  | some 0 => rfl
  | some (n + 1) => exact hwrite ⟨tree, outside, shown, some n⟩

theorem projects_watched (o : Outside ω) (s : Setup) :
    (surroundings o.watched s).Projects (Scene.map Prod.fst) (surroundings o s) where
  answer i w := by
    have h := answer_watched o s.limit i w
    exact ⟨(congrArg Prod.fst h).symm, (congrArg Prod.snd h).symm⟩
  persist d w := by
    have h := persist_watched o s.output d w
    exact ⟨(congrArg Prod.fst h).symm, (congrArg Prod.snd h).symm⟩
  extract := rfl
  note _ _ _ _ := rfl

theorem conclude_watched (o : Outside ω) (s : Setup) (withReport : Bool) (outcome : Outcome)
    (d : Document) (w : Scene (ω × List Contact)) :
    conclude o s withReport outcome d (w.map Prod.fst) =
      ((conclude o.watched s withReport outcome d w).1,
        (conclude o.watched s withReport outcome d w).2.map Prod.fst) := by
  have hcrashed : (w.map Prod.fst).crashed = w.crashed := rfl
  unfold conclude
  rw [hcrashed]
  split
  · rfl
  · split
    · dsimp only
      rw [showLines_watched]
    · rfl

theorem sweep_watched (o : Outside ω) (timestamp : String) (s : Setup) (withReport : Bool)
    (w : Scene (ω × List Contact)) : sweep o timestamp s withReport (w.map Prod.fst) =
      ((sweep o.watched timestamp s withReport w).1,
        (sweep o.watched timestamp s withReport w).2.map Prod.fst) := by
  unfold sweep
  rw [run_mapWorld (projects_watched o s)]
  exact conclude_watched o s withReport _ _ _

/-! What the record of a sweep holds. -/

theorem showLines_contacts (o : Outside ω) (lines : List String) (s : Scene (ω × List Contact)) :
    let r := showLines o.watched lines s
    r.2.crashed = s.crashed ∧ r.2.outside.2 = s.outside.2 ++ List.replicate r.1 (.shown true) ++
      if r.1 = lines.length then [] else [.shown false] := by
  induction lines generalizing s with
  | nil => exact ⟨rfl, by simp [showLines]⟩
  | cons line lines ih =>
    rw [showLines]
    cases hshow : o.show? s.outside.1 with
    | mk ok outside =>
      have hwatched : o.watched.show? s.outside = (ok, outside, s.outside.2 ++ [.shown ok]) := by
        simp [Outside.watched, hshow]
      rw [hwatched]
      cases ok with
      | false => exact ⟨rfl, by simp⟩
      | true =>
        obtain ⟨hcrashed, hcontacts⟩ := ih { s with
          outside := (outside, s.outside.2 ++ [.shown true]), shown := line :: s.shown }
        refine ⟨hcrashed, hcontacts.trans ?_⟩
        simp [List.replicate_succ]

/-- As long as nothing has crashed, every line of every call has been shown, and the sweep has heard
of the calls what they answered. A crash is the last that the outside has to do with. -/
structure Faithful (w : Scene (ω × List Contact) × Log) : Prop where
  calm : w.1.crashed = none → .shown false ∉ w.1.outside.2 ∧
    w.1.outside.2.filterMap Contact.call? = w.2.calls.map (fun c => (c.invocation, c.response))
  crashed : w.1.crashed.isSome = true → w.1.outside.2.getLast? = some (.shown false)

theorem Faithful.answer {o : Outside ω} {s : Setup} {w : Scene (ω × List Contact) × Log}
    (h : Faithful w) (i : Invocation) :
    Faithful ((surroundings o.watched s).recorded.answer i w).2 := by
  obtain ⟨scene, log⟩ := w
  change Faithful ((Program.answer o.watched s.limit i scene).2,
    log.called i (Program.answer o.watched s.limit i scene).1)
  by_cases hcrashed : scene.crashed.isSome = true
  · rw [Program.answer, if_pos hcrashed]
    refine ⟨fun hcalm => ?_, fun _ => h.crashed hcrashed⟩
    simp [show scene.crashed = none from hcalm] at hcrashed
  · have hcalm : scene.crashed = none := by simpa using hcrashed
    obtain ⟨hshown, hcalls⟩ := h.calm hcalm
    let r := o.call i s.limit scene.tree scene.outside.1
    let called : Scene (ω × List Contact) :=
      ⟨r.2.1, (r.2.2, scene.outside.2 ++ [.called i r.1]), scene.shown, scene.crashed⟩
    have hanswer : Program.answer o.watched s.limit i scene =
        heard r.1 (showLines o.watched r.1.lines called).1
          (showLines o.watched r.1.lines called).2 := by
      rw [Program.answer, if_neg hcrashed]
      rfl
    obtain ⟨hstill, hcontacts⟩ := showLines_contacts o r.1.lines called
    rw [hanswer, heard]
    split
    · -- All lines have been shown, so the sweep hears what the call answered.
      rename_i hall
      rw [if_pos hall, List.append_nil] at hcontacts
      refine ⟨fun _ => ?_, fun hsome => ?_⟩
      · rw [hcontacts]
        dsimp only at hcalls hshown ⊢
        simp [called, Log.called, Contact.call?, hcalls, hshown, List.mem_replicate]
      · rw [hstill] at hsome
        exact absurd hsome hcrashed
    · rename_i hcut
      rw [if_neg hcut] at hcontacts
      refine ⟨nofun, fun _ => ?_⟩
      dsimp only
      rw [hcontacts, List.getLast?_concat]

theorem Faithful.persist {o : Outside ω} {s : Setup} {w : Scene (ω × List Contact) × Log}
    (h : Faithful w) (d : Document) :
    Faithful ((surroundings o.watched s).recorded.persist d w).2 := by
  obtain ⟨⟨tree, outside, shown, crashed⟩, log⟩ := w
  match crashed with
  | none => exact ⟨h.calm, h.crashed⟩
  | some 0 => exact ⟨h.calm, h.crashed⟩
  | some (n + 1) => exact ⟨nofun, fun _ => h.crashed rfl⟩

theorem keeps_faithful (o : Outside ω) (s : Setup) :
    Sweep.Keeps (surroundings o.watched s).recorded (fun _ w => Faithful w) where
  calling _ _ _ _ _ _ h := ⟨h.calm, h.crashed⟩
  called _ _ _ _ _ _ _ h := ⟨h.calm, h.crashed⟩
  answer i _ _ h := h.answer i
  accept _ _ _ _ _ _ _ _ h := (Faithful.mk h.calm h.crashed).persist _

theorem conclude_of_crash {o : Outside ω} {s : Setup} {withReport : Bool} {outcome : Outcome}
    {d : Document} {w : Scene ω} (h : w.crashed.isSome = true) :
    conclude o s withReport outcome d w = (.crash, w) := by
  rw [conclude, if_pos h]

/-- A report has to do with the outside, but calls nothing, and whether it can be shown does not
matter. -/
theorem conclude_of_calm (o : Outside ω) (s : Setup) (withReport : Bool) (outcome : Outcome)
    (d : Document) {w : Scene (ω × List Contact)} (h : w.crashed = none) :
    let r := conclude o.watched s withReport outcome d w
    r.1 = .success ∧
      r.2.outside.2.filterMap Contact.call? = w.outside.2.filterMap Contact.call? := by
  have hno : ¬ w.crashed.isSome = true := by simp [h]
  unfold conclude
  rw [if_neg hno]
  split
  · obtain ⟨-, hcontacts⟩ := showLines_contacts o
      (Report.lines d (Comparison.build d s.baseline.name s.algorithms) true false) w
    refine ⟨rfl, ?_⟩
    dsimp only
    rw [hcontacts]
    split <;> simp [Contact.call?]
  · exact ⟨rfl, rfl⟩

section Command

variable (o : Outside ω) (timestamp : String) {arguments : List String} {options : SweepOptions}
  (hc : Command.ofArguments arguments = .ok (.sweep options)) {t : Tree}

include hc

theorem run_refused {e : SetupError} (he : (setup options).validate t = .error e) (w : ω) :
    run o timestamp arguments t w = (.failure (.ofSetup e), ⟨t, w, [], none⟩) := by
  simp only [run, hc, he]

theorem run_accepted (hvalid : (setup options).validate t = .ok ()) (w : ω) :
    run o timestamp arguments t w =
      sweep o timestamp (setup options) (!options.noReport) ⟨t, w, [], none⟩ := by
  simp only [run, hc, hvalid]

theorem run_watched (w : ω × List Contact) : run o timestamp arguments t w.1 =
    ((run o.watched timestamp arguments t w).1,
      (run o.watched timestamp arguments t w).2.map Prod.fst) := by
  cases hvalid : (setup options).validate t with
  | error e =>
    rw [run_refused o timestamp hc hvalid, run_refused o.watched timestamp hc hvalid]
    rfl
  | ok u =>
    rw [run_accepted o timestamp hc hvalid, run_accepted o.watched timestamp hc hvalid]
    exact sweep_watched o timestamp (setup options) (!options.noReport) ⟨t, w, [], none⟩

end Command

/-- How a program ends that is asked for a sweep, whatever its outside does, and what has become of
the outside then. If the setup is refused, it fails, and nothing at all has happened. Otherwise it
ends with code 0 as long as every line of the tools can be shown while they run, and then the runs
have been called, in their order, that were to be: those for which all earlier runs of the algorithm
have ended with code zero and no earlier call has been interrupted. A line that cannot be shown then
is the last that happens, and the code is 101. Failed writes, failed calls and a report that cannot
be shown do not matter. -/
theorem exit_of_sweep (o : Outside ω) (timestamp : String) {arguments : List String}
    {options : SweepOptions} (hc : Command.ofArguments arguments = .ok (.sweep options)) (t : Tree)
    (w : ω) :
    let s := setup options
    let r := run o.watched timestamp arguments t (w, [])
    run o timestamp arguments t w = (r.1, r.2.map Prod.fst) ∧
    (∀ e, s.validate t = .error e →
      r = (.failure (.ofSetup e), ⟨t, (w, []), [], none⟩) ∧ r.1.code ≠ 0) ∧
    (s.validate t = .ok () →
      let swept := Sweep.run (surroundings o.watched s).recorded s (s.document timestamp)
        (⟨t, (w, []), [], none⟩, Log.empty)
      let calls := swept.2.2.2.calls
      let contacts := swept.2.2.1.outside.2
      (.shown false ∈ contacts → r.1.code = 101 ∧ r.2.outside.2 = contacts ∧
        contacts.getLast? = some (.shown false)) ∧
      (.shown false ∉ contacts → r.1.code = 0 ∧
        r.2.outside.2.filterMap Contact.call? = calls.map (fun c => (c.invocation, c.response)) ∧
        calls.Pairwise (fun c c' => c.Before c'.index c'.run) ∧
        (∀ c ∈ calls, s.algorithms[c.index]? = some c.algorithm ∧ 1 ≤ c.run ∧ c.run ≤ s.runs ∧
          c.invocation = s.invocation c.algorithm) ∧
        ∀ i run, i < s.algorithms.length → 1 ≤ run → run ≤ s.runs →
          ((∃ c ∈ calls, c.index = i ∧ c.run = run) ↔
            (∀ run', 1 ≤ run' → run' < run →
              ∃ c ∈ calls, c.index = i ∧ c.run = run' ∧ c.response.ending = .exited (some 0)) ∧
            ∀ c ∈ calls, c.Before i run → c.response.ending ≠ .failed .interrupted))) := by
  intro s r
  refine ⟨run_watched o timestamp hc (w, []), fun e he => ?_, fun hvalid => ?_⟩
  · have hrefused : r = (.failure (.ofSetup e), ⟨t, (w, []), [], none⟩) :=
      run_refused o.watched timestamp hc he (w, [])
    exact ⟨hrefused, by rw [hrefused]; exact nofun⟩
  intro swept calls contacts
  have h : Recorded (surroundings o.watched s) s (s.document timestamp) swept :=
    run_recorded _ s _ _
  have hswept : r = conclude o.watched s (!options.noReport) swept.1 swept.2.1 swept.2.2.1 := by
    refine (run_accepted o.watched timestamp hc hvalid (w, [])).trans ?_
    rw [sweep, run_mapWorld (surroundings o.watched s).projects_recorded s (s.document timestamp)
      (⟨t, (w, []), [], none⟩, Log.empty)]
  have hfaithful : Faithful swept.2.2 :=
    (keeps_faithful o s).run (fun d _ h => h.persist d) s ⟨fun _ => ⟨nofun, rfl⟩, nofun⟩
  constructor
  · intro hunshown
    have hcrashed : swept.2.2.1.crashed.isSome = true := by
      cases hcrash : swept.2.2.1.crashed with
      | none => exact absurd hunshown (hfaithful.calm hcrash).1
      | some n => rfl
    rw [hswept, conclude_of_crash hcrashed]
    exact ⟨rfl, rfl, hfaithful.crashed hcrashed⟩
  · intro hshown
    have hcalm : swept.2.2.1.crashed = none := by
      cases hcrash : swept.2.2.1.crashed with
      | none => rfl
      | some n =>
        have hlast := hfaithful.crashed (by rw [hcrash]; rfl)
        exact absurd (List.mem_of_getLast? hlast) hshown
    obtain ⟨hexit, hcontacts⟩ :=
      conclude_of_calm o s (!options.noReport) swept.1 swept.2.1 hcalm
    rw [← hswept] at hexit hcontacts
    refine ⟨by rw [hexit]; rfl, hcontacts.trans (hfaithful.calm hcalm).2,
      h.called.ordered (runNumbers_increasing s.runs), fun c hc => ?_,
      fun i run hi h₁ h₂ => h.called_iff hi h₁ h₂⟩
    exact h.place c hc

/-- Every call gives one measurement and fails, every write fails, and only so many lines can be
shown. -/
def sampleOutside : Outside Nat where
  call _ _ t lines :=
    (⟨["Benchmarked a.jfr with x in 1.5s, size: 3 bytes"], .exited (some 3)⟩, t, lines)
  faults lines := (fun _ => some ⟨.permissionDenied, 7⟩, lines)
  show? lines := (0 < lines, lines - 1)

def sampleArguments : List String :=
  ["sweep", "-r", "2", "-a", "gzip", "-a", "xz", "--tool", "cjfr"]

def sampleOptions : SweepOptions :=
  { runs := 2, output := Setup.standardOutput, filter := none, small := false
    baseline := .standard, algorithms := [.gzip, .xz], tool := "cjfr"
    configuration := Setup.standardConfiguration, timeoutSeconds := none, noReport := false }

theorem exit_of_sweep_sample :
    let r := run sampleOutside.watched "t" sampleArguments ⟨[], []⟩ (2, [])
    (setup sampleOptions).validate ⟨[], []⟩ = .ok () ∧ r.1.code = 0 ∧
    (r.2.outside.2.filterMap Contact.call?).map (·.1) =
      [(setup sampleOptions).invocation .gzip, (setup sampleOptions).invocation .xz] ∧
    .shown false ∈ r.2.outside.2 := by
  intro r
  have hvalid : (setup sampleOptions).validate ⟨[], []⟩ = .ok () := by decide +kernel
  obtain ⟨-, -, haccepted⟩ := exit_of_sweep sampleOutside "t"
    (by decide +kernel : Command.ofArguments sampleArguments = .ok (.sweep sampleOptions))
    ⟨[], []⟩ 2
  obtain ⟨hcode, -⟩ := (haccepted hvalid).2 (by decide +kernel)
  exact ⟨hvalid, hcode, by decide +kernel, by decide +kernel⟩

/-- One line less that can be shown, and it is a line of the tool that cannot. -/
theorem exit_of_sweep_unshown :
    (setup sampleOptions).validate ⟨[], []⟩ = .ok () ∧
    (run sampleOutside "t" sampleArguments ⟨[], []⟩ 1).1.code = 101 := by
  decide +kernel

end Program

end CompressionSweep
