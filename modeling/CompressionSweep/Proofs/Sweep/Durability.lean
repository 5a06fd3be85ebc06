import CompressionSweep.Measurement.Line
import CompressionSweep.Proofs.RoundTrip
import CompressionSweep.Proofs.Sweep.Invariant

/-! The file of a sweep at every moment, also inside a write that is cut off. -/

namespace CompressionSweep

open Sweep

theorem Line.finite_of_measurement? {line : String} {m : Measurement}
    (h : Line.measurement? line = some m) : m.Finite := by
  unfold Line.measurement? at h
  obtain ⟨fields, -, h⟩ := Option.bind_eq_some_iff.mp h
  unfold Line.Fields.measurement? at h
  obtain ⟨x, hx, h⟩ := Option.bind_eq_some_iff.mp h
  obtain ⟨n, -, h⟩ := Option.bind_eq_some_iff.mp h
  obtain rfl := Option.some.inj h
  unfold Line.Seconds.value? at hx
  obtain ⟨e, -, hx⟩ := Option.bind_eq_some_iff.mp hx
  dsimp only at hx
  split at hx
  · cases hx
  · rename_i hinf
    obtain rfl := Option.some.inj hx
    exact Decimal.isFinite_toFloat (Bool.eq_false_iff.mpr hinf)

/-- A sweep with its document in a file: the tool answers anything, and any step of any write may
fail. -/
def Store.surroundings {ω : Type} (answer : Invocation → ω → Response × ω)
    (faults : ω → Faults × ω) (path : String) : Surroundings (Tree × ω) where
  answer i w := ((answer i w.2).1, w.1, (answer i w.2).2)
  persist d w :=
    let f := faults w.2
    let r := (⟨d, some path⟩ : Store).flush f.1 w.1
    (r.1.toBool, r.2, f.2)
  extract := Line.measurement?

/-- A measurement on its way to the file, and the document without it. -/
structure Filing where
  algorithm : Algorithm
  run : UInt32
  measurement : Measurement
  before : Document

/-- The files at a moment of a sweep, the document in memory, the measurement that is being
written, and whether all writes so far have succeeded. -/
structure Instant where
  tree : Tree
  memory : Document
  filing : Option Filing
  intact : Bool

/-- The files under a sweep, what else there is, the moments since the document was first written,
and those of them at which a call began or ended. -/
structure Disk (ω : Type) where
  tree : Tree
  outside : ω
  filing : Option Filing
  intact : Bool
  opened : Bool
  instants : List Instant
  edges : List Instant

namespace Disk

variable {ω : Type}

def start (t : Tree) (outside : ω) : Disk ω := ⟨t, outside, none, true, false, [], []⟩

def edge (d : Document) (w : Disk ω) : Disk ω :=
  { w with edges := w.edges ++ [⟨w.tree, d, w.filing, w.intact⟩] }

/-- A write of the document, with all the moments at which it can be cut off, and the moment
after it. -/
def write (faults : ω → Faults × ω) (path : String) (d : Document) (w : Disk ω) :
    Bool × Disk ω :=
  let f := faults w.outside
  let r := (⟨d, some path⟩ : Store).flush f.1 w.tree
  let inside := (w.tree.saveStates f.1 path d.pretty).map (⟨·, d, w.filing, w.intact⟩)
  let intact := w.intact && r.1.toBool
  (r.1.toBool,
    { w with
      tree := r.2
      outside := f.2
      filing := none
      intact
      opened := true
      instants := w.instants ++ (if w.opened then inside else []) ++ [⟨r.2, d, none, intact⟩] })

/-- The same with all moments kept. A call is observed as it begins and as it ends. -/
def surroundings (answer : Invocation → ω → Response × ω) (faults : ω → Faults × ω)
    (path : String) : Surroundings (Disk ω) where
  answer i w := ((answer i w.outside).1, { w with outside := (answer i w.outside).2 })
  persist := write faults path
  extract := Line.measurement?
  note e d _ w :=
    match e with
    | .parsed a run m => { w with filing := some ⟨a, run, m, d⟩ }
    | _ => edge d w

theorem projects_surroundings (answer : Invocation → ω → Response × ω) (faults : ω → Faults × ω)
    (path : String) : (surroundings answer faults path).Projects (fun w => (w.tree, w.outside))
      (Store.surroundings answer faults path) where
  answer _ _ := ⟨rfl, rfl⟩
  persist _ _ := ⟨rfl, rfl⟩
  extract := rfl
  note e _ _ _ := by cases e <;> rfl

end Disk

/-- The file holds the document in memory, or this without the measurement that is being
written. -/
def Instant.Sound (path : String) (i : Instant) : Prop :=
  Store.load i.tree path = .ok (some i.memory) ∨
    ∃ f, i.filing = some f ∧ i.memory = f.before.append f.algorithm.name f.run f.measurement ∧
      Store.load i.tree path = .ok (some f.before)

/-- What holds of the document in memory and the disk between two writes. -/
structure Durable {ω : Type} (path : String) (d : Document) (w : Disk ω) : Prop where
  storable : d.Storable
  opened : w.opened = true
  idle : w.filing = none
  current : w.intact = true → w.tree.read path = .ok d.encode
  sound : ∀ i ∈ w.instants, i.intact = true → i.Sound path
  edges : ∀ i ∈ w.edges, i.intact = true → Store.load i.tree path = .ok (some i.memory)

section Durable

variable {ω : Type} {path : String} {d : Document} {w : Disk ω}

theorem Durable.load (h : Durable path d w) (hw : w.intact = true) :
    Store.load w.tree path = .ok (some d) :=
  Store.load_of_read (h.current hw) h.storable

theorem Durable.edge (h : Durable path d w) : Durable path d (w.edge d) where
  storable := h.storable
  opened := h.opened
  idle := h.idle
  current := h.current
  sound := h.sound
  edges := by
    intro i hi hintact
    rcases List.mem_append.mp hi with hi | hi
    · exact h.edges i hi hintact
    · obtain rfl := List.mem_singleton.mp hi
      exact h.load hintact

theorem current_write {faults : ω → Faults × ω}
    (hw : (w.write faults path d).2.intact = true) :
    (w.write faults path d).2.tree.read path = .ok d.encode := by
  have hok : ((⟨d, some path⟩ : Store).flush (faults w.outside).1 w.tree).1.toBool = true :=
    (Bool.and_eq_true_iff.mp hw).2
  cases hf : (⟨d, some path⟩ : Store).flush (faults w.outside).1 w.tree with
  | mk result t =>
    rw [hf] at hok
    cases result with
    | error e => cases hok
    | ok u =>
      have hread := Store.read_of_flush hf
      change ((⟨d, some path⟩ : Store).flush (faults w.outside).1 w.tree).2.read path = _
      rw [hf]
      exact hread

theorem durable_write {faults : ω → Faults × ω} (hd : d.Storable)
    (hsound : ∀ i ∈ w.instants, i.intact = true → i.Sound path)
    (hinside : w.opened = true → w.intact = true →
      ∀ t ∈ w.tree.saveStates (faults w.outside).1 path d.pretty,
        (⟨t, d, w.filing, true⟩ : Instant).Sound path)
    (hedges : ∀ i ∈ w.edges, i.intact = true → Store.load i.tree path = .ok (some i.memory)) :
    Durable path d (w.write faults path d).2 where
  storable := hd
  opened := rfl
  idle := rfl
  current := current_write
  sound := by
    intro i hi hintact
    rcases List.mem_append.mp hi with hi | hi
    · rcases List.mem_append.mp hi with hi | hi
      · exact hsound i hi hintact
      · split at hi
        · rename_i hopened
          obtain ⟨t, ht, rfl⟩ := List.mem_map.mp hi
          have hw : w.intact = true := hintact
          have hs := hinside hopened hw t ht
          rwa [← hw] at hs
        · cases hi
    · obtain rfl := List.mem_singleton.mp hi
      exact .inl (Store.load_of_read (current_write hintact) hd)
  edges := hedges

theorem load_inside {before : Document} {faults : Faults} {t t' : Tree} (hb : before.Storable)
    (hd : d.Storable) (hr : t.read path = .ok before.encode)
    (ht : t' ∈ t.saveStates faults path d.pretty) :
    Store.load t' path = .ok (some before) ∨ Store.load t' path = .ok (some d) :=
  (Tree.read_of_mem_saveStates hr ht).imp (fun h => Store.load_of_read h hb)
    (fun h => Store.load_of_read h hd)

variable (answer : Invocation → ω → Response × ω) (faults : ω → Faults × ω)

theorem keeps_durable (path : String) :
    Keeps (Disk.surroundings answer faults path) (Durable path) where
  calling _ _ _ _ _ _ h := h.edge
  called _ _ _ _ _ _ _ h := h.edge
  answer _ _ _ h := ⟨h.storable, h.opened, h.idle, h.current, h.sound, h.edges⟩
  accept line m a run d _ w hm h := by
    -- Only here the document goes ahead of its file.
    have hd := h.storable.append a.name run (Line.finite_of_measurement? hm)
    refine durable_write hd h.sound (fun _ hw t ht => ?_) h.edges
    refine (load_inside h.storable hd (h.current hw) ht).symm.imp id (fun hload => ?_)
    exact ⟨⟨a, run, m, d⟩, rfl, rfl, hload⟩

end Durable

/-- The file of a sweep is never behind by more than the measurement that is being written. As long
as all writes have succeeded, at every moment after the first write, also where a write is cut off,
the file can be loaded and gives the document in memory, or that without the measurement that is
being written. It gives the document in memory whenever a call begins or ends, and when the sweep
is over. -/
theorem sweep_durability {ω : Type} (answer : Invocation → ω → Response × ω)
    (faults : ω → Faults × ω) (s : Setup) (timestamp : String) (t : Tree) (outside : ω) :
    let r := run (Disk.surroundings answer faults s.output) s (s.document timestamp)
      (Disk.start t outside)
    run (Store.surroundings answer faults s.output) s (s.document timestamp) (t, outside) =
      (r.1, r.2.1, r.2.2.tree, r.2.2.outside) ∧
    (∀ i ∈ r.2.2.instants, i.intact = true →
      Store.load i.tree s.output = .ok (some i.memory) ∨
      ∃ f, i.filing = some f ∧ i.memory = f.before.append f.algorithm.name f.run f.measurement ∧
        Store.load i.tree s.output = .ok (some f.before)) ∧
    (∀ i ∈ r.2.2.edges, i.intact = true → Store.load i.tree s.output = .ok (some i.memory)) ∧
    (r.2.2.intact = true → Store.load r.2.2.tree s.output = .ok (some r.2.1)) := by
  let env := Disk.surroundings answer faults s.output
  let p := flush env ⟨s.document timestamp, Disk.start t outside, ⟨schedule s, 0, false⟩⟩
  have hfirst : Durable s.output p.document p.world :=
    durable_write (Document.storable_new _ _ _ _ _) (fun _ hi => absurd hi List.not_mem_nil)
      (fun hopened => by cases hopened) (fun _ hi => absurd hi List.not_mem_nil)
  have hcalls := (keeps_durable answer faults s.output).runAlgorithms s 0 s.algorithms hfirst
  have hlast : Durable s.output (flush env (runAlgorithms env s 0 s.algorithms p)).document
      (flush env (runAlgorithms env s 0 s.algorithms p)).world :=
    durable_write hcalls.storable hcalls.sound (fun _ hw t' ht => .inl
      ((load_inside hcalls.storable hcalls.storable (hcalls.current hw) ht).elim id id))
      hcalls.edges
  exact ⟨run_mapWorld (Disk.projects_surroundings answer faults s.output) s
      (s.document timestamp) (Disk.start t outside), hlast.sound, hlast.edges, hlast.load⟩

def sampleSweep : Outcome × Document × Disk Unit :=
  run (Disk.surroundings
      (fun _ w => (⟨["Benchmarked a.jfr with x in 1.5s, size: 3 bytes"], .exited (some 0)⟩, w))
      (fun w => (Faults.none, w)) "r.json")
    { Setup.standard with runs := 1, algorithms := [.gzip], output := "r.json" }
    (Document.new "t" "reasonable-default" 1 none .standard) (Disk.start ⟨[], []⟩ ())

theorem sweep_durability_sample :
    sampleSweep.2.2.intact = true ∧
    sampleSweep.2.1.compressions = [⟨"GZIP", [⟨1, [⟨"a.jfr", 1.5, 3⟩]⟩]⟩] ∧
    Store.load sampleSweep.2.2.tree "r.json" = .ok (some sampleSweep.2.1) := by
  have hintact : sampleSweep.2.2.intact = true := by decide +kernel
  have h := sweep_durability
    (fun _ w => (⟨["Benchmarked a.jfr with x in 1.5s, size: 3 bytes"], .exited (some 0)⟩, w))
    (fun w => (Faults.none, w))
    { Setup.standard with runs := 1, algorithms := [.gzip], output := "r.json" } "t" ⟨[], []⟩ ()
  exact ⟨hintact, by decide +kernel, h.2.2.2 hintact⟩

end CompressionSweep
