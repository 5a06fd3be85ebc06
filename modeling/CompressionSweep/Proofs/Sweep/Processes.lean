import CompressionSweep.Proofs.Call.Child
import CompressionSweep.Proofs.Call.Course
import CompressionSweep.Proofs.Sweep.Invariant
import Mathlib.Data.List.Forall2

/-! A sweep whose calls start children of their own. What is left of a call goes on beside the
calls that follow it: others of its group may still write, its reader may still read. -/

namespace CompressionSweep

open Call

/-- The start of a child, or the attempt at it. -/
structure Launch where
  /-- Whether the interrupt flag was up. -/
  raised : Bool
  succeeded : Bool
  /-- The calls whose children had been started before, as they were at this moment. -/
  earlier : List Machine

/-- The part of the world in which the children live. -/
structure Host where
  raised : Bool
  /-- The calls whose children have been started, the first one first. -/
  machines : List Machine
  launches : List Launch

namespace Host

/-- Nobody is started: what there is goes on, and the flag may be raised. -/
structure Later (h h' : Host) : Prop where
  raised : h.raised = true → h'.raised = true
  machines : List.Forall₂ (fun m m' => ∃ as, m.after as = some m') h.machines h'.machines
  launches : h'.launches = h.launches

theorem Later.refl (h : Host) : h.Later h :=
  ⟨id, List.forall₂_same.mpr (fun _ _ => ⟨[], rfl⟩), rfl⟩

/-- A call: the child cannot be started, or there is an execution up to its return. -/
inductive Called (limit : Option Nat) (i : Invocation) (h : Host) : Response → Host → Prop where
  | refused {h₁ : Host} {cause : String} (before : h.Later h₁) :
    Called limit i h ⟨[], .failed (.spawn i.program cause)⟩
      { h₁ with launches := h₁.launches ++ [⟨h₁.raised, false, h₁.machines⟩] }
  | ran {h₁ h₂ : Host} {now : Nat} {as : List Action} {m : Machine} {e : Ending}
    (before : h.Later h₁) (execution : (Machine.start now limit h₁.raised).after as = some m)
    (returned : m.phase = .returned e) (meanwhile : h₁.Later h₂) :
    Called limit i h m.response
      { raised := m.interrupted
        machines := h₂.machines ++ [m]
        launches := h₁.launches ++ [⟨h₁.raised, true, h₁.machines⟩] }

end Host

/-- Surroundings whose calls start children on the host, and which start no others. -/
structure Surroundings.StartsOn {ω : Type} (env : Surroundings ω) (host : ω → Host)
    (limit : Option Nat) : Prop where
  answer : ∀ i w, (host w).Called limit i (env.answer i w).1 (host (env.answer i w).2)
  persist : ∀ d w, (host w).Later (host (env.persist d w).2)
  note : ∀ e d pairs w, (host w).Later (host (env.note e d pairs w))

namespace Host

theorem Later.forall_mem {h h' : Host} (later : h.Later h') {P : Machine → Prop}
    (hafter : ∀ m as m', P m → m.after as = some m' → P m') (hall : ∀ m ∈ h.machines, P m) :
    ∀ m ∈ h'.machines, P m := by
  have hmachines := later.machines
  generalize h.machines = ms, h'.machines = ms' at hmachines hall
  induction hmachines with
  | nil => exact hall
  | cons hm hms ih =>
    obtain ⟨as, has⟩ := hm
    obtain ⟨hfirst, hrest⟩ := List.forall_mem_cons.mp hall
    exact List.forall_mem_cons.mpr ⟨hafter _ as _ hfirst has, ih hrest⟩

/-- When a child was started, all children before it had ended and had been waited for. -/
def InTurn (launches : List Launch) : Prop :=
  ∀ k l, launches[k]? = some l →
    l.earlier.length = (launches.take k).countP (·.succeeded) ∧ ∀ m ∈ l.earlier, m.IsReaped

theorem InTurn.append {launches : List Launch} (h : InTurn launches) {l : Launch}
    (hnumber : l.earlier.length = launches.countP (·.succeeded))
    (hreaped : ∀ m ∈ l.earlier, m.IsReaped) : InTurn (launches ++ [l]) := by
  intro k l' hl'
  rcases Nat.lt_or_ge k launches.length with hk | hk
  · rw [List.getElem?_append_left hk] at hl'
    rw [List.take_append_of_le_length (Nat.le_of_lt hk)]
    exact h k l' hl'
  · -- The only launch behind the others is the new one.
    rw [List.getElem?_append_right hk, List.getElem?_singleton] at hl'
    split at hl'
    · rename_i hlast
      obtain rfl := Option.some.inj hl'
      rw [List.take_append_of_le_length (by omega), List.take_of_length_le hk]
      exact ⟨hnumber, hreaped⟩
    · cases hl'

/-- Between two calls. -/
structure Idle (h : Host) : Prop where
  done : ∀ m ∈ h.machines, m.IsDone
  number : h.machines.length = h.launches.countP (·.succeeded)
  inTurn : InTurn h.launches

theorem idle_nil {h : Host} (hmachines : h.machines = []) (hlaunches : h.launches = []) :
    h.Idle := by
  refine ⟨?_, ?_, ?_⟩
  · rw [hmachines]
    exact fun _ hm => absurd hm List.not_mem_nil
  · rw [hmachines, hlaunches]
    rfl
  · rw [hlaunches]
    exact nofun

theorem Idle.later {h h' : Host} (hidle : h.Idle) (later : h.Later h') : h'.Idle := by
  refine ⟨later.forall_mem (fun _ _ _ hm has => hm.after has) hidle.done, ?_, ?_⟩
  · rw [later.launches, ← later.machines.length_eq]
    exact hidle.number
  · rw [later.launches]
    exact hidle.inTurn

theorem Idle.called {limit : Option Nat} {i : Invocation} {h h' : Host} {r : Response}
    (hidle : h.Idle) (hcall : h.Called limit i r h') : h'.Idle := by
  cases hcall with
  | @refused h₁ cause before =>
    have hidle₁ := hidle.later before
    refine ⟨hidle₁.done, ?_, hidle₁.inTurn.append hidle₁.number
      (fun m hm => (hidle₁.done m hm).isReaped)⟩
    rw [List.countP_append]
    exact hidle₁.number
  | @ran h₁ h₂ now as m e before execution returned meanwhile =>
    have hidle₁ := hidle.later before
    have hidle₂ := hidle₁.later meanwhile
    refine ⟨List.forall_mem_append.mpr ⟨hidle₂.done, ?_⟩, ?_, hidle₁.inTurn.append hidle₁.number
      (fun m hm => (hidle₁.done m hm).isReaped)⟩
    · exact List.forall_mem_singleton.mpr (Machine.isDone_of_returned execution returned)
    · rw [List.countP_append, List.length_append, hidle₂.number, meanwhile.launches]
      rfl

end Host

variable {ω : Type} {env : Surroundings ω} {host : ω → Host} {limit : Option Nat}

theorem Surroundings.StartsOn.keeps (henv : env.StartsOn host limit) :
    Sweep.Keeps env (fun _ w => (host w).Idle) where
  calling _ _ _ _ _ _ hw := hw.later (henv.note _ _ _ _)
  called _ _ _ _ _ _ _ hw := hw.later (henv.note _ _ _ _)
  answer _ _ _ hw := hw.called (henv.answer _ _)
  accept _ _ _ _ _ _ _ _ hw := (hw.later (henv.note _ _ _ _)).later (henv.persist _ _)

/-- Children do not run beside each other. However a call comes to return, its child has ended and
has been waited for once, and the exit code it tells is the one of the child. So in a sweep,
whenever a child is started, or the attempt is made, all children started before it have ended and
have been waited for once, and this is how the sweep leaves them. -/
theorem children_in_turn (henv : env.StartsOn host limit) (s : Setup) (d : Document) (w : ω)
    (hmachines : (host w).machines = []) (hlaunches : (host w).launches = []) :
    (∀ now limit interrupted as m e,
      (Machine.start now limit interrupted).after as = some m → m.phase = .returned e →
        m.waits = 1 ∧
          ∃ status, m.child = .reaped status ∧ ∀ code, e = .exited code → code = status) ∧
    let h := host (Sweep.run env s d w).2.2
    h.machines.length = h.launches.countP (·.succeeded) ∧
    (∀ m ∈ h.machines, m.IsReaped) ∧
    ∀ k l, h.launches[k]? = some l →
      l.earlier.length = (h.launches.take k).countP (·.succeeded) ∧
        ∀ m ∈ l.earlier, m.IsReaped := by
  refine ⟨fun now limit interrupted as m e h hphase => ?_, ?_⟩
  · have hdone := Machine.isDone_of_returned h hphase
    obtain ⟨hwaits, status, hchild⟩ := hdone.isReaped
    refine ⟨hwaits, status, hchild, ?_⟩
    rintro code rfl
    have htold := hdone.attended.told code (.inr hphase)
    exact (Child.reaped.inj (hchild.symm.trans htold)).symm
  · have hend := henv.keeps.run (fun d w hw => hw.later (henv.persist d w)) s (d := d)
      (Host.idle_nil hmachines hlaunches)
    exact ⟨hend.number, fun m hm => (hend.done m hm).isReaped, hend.inTurn⟩

def sampleTimetable : Timetable := [(0, .write [97, 10]), (5, .close), (7, .exit (some 0))]

/-- A child that gives one line, with the flag up from the start or never. -/
def sampleCall (raised : Bool) : Machine :=
  Call.run sampleTimetable none (if raised then .before else .never)

theorem sampleCall_after (raised : Bool) :
    ∃ as, (Machine.start 0 none raised).after as = some (sampleCall raised) := by
  cases raised
  · exact run_after sampleTimetable none .never
  · exact run_after sampleTimetable none .before

theorem sampleCall_returned (raised : Bool) : ∃ e, (sampleCall raised).phase = .returned e := by
  cases raised
  · exact ⟨.exited (some 0), by decide +kernel⟩
  · exact ⟨.failed .interrupted, by decide +kernel⟩

/-- The second child cannot be started, and the flag is raised in front of the fourth. -/
def sampleHost : Surroundings Host where
  answer i h :=
    if h.launches.length = 1 then
      (⟨[], .failed (.spawn i.program "not found")⟩,
        { h with launches := h.launches ++ [⟨h.raised, false, h.machines⟩] })
    else
      ((sampleCall h.raised).response,
        { raised := (sampleCall h.raised).interrupted
          machines := h.machines ++ [sampleCall h.raised]
          launches := h.launches ++ [⟨h.raised, true, h.machines⟩] })
  persist _ h := (true, h)
  extract line := some ⟨line, 1.5, 3⟩
  note _ _ _ h := { h with raised := h.raised || h.launches.length == 3 }

theorem sampleHost_startsOn : sampleHost.StartsOn id none where
  answer i h := by
    unfold sampleHost
    dsimp only [id_eq]
    split
    · exact .refused (.refl h)
    · obtain ⟨as, has⟩ := sampleCall_after h.raised
      obtain ⟨e, he⟩ := sampleCall_returned h.raised
      exact .ran (.refl h) has he (.refl h)
  persist _ h := .refl h
  note _ _ _ h := by
    refine ⟨fun hup => ?_, (Host.Later.refl h).machines, rfl⟩
    exact Bool.or_eq_true_iff.mpr (.inl hup)

theorem children_in_turn_sample :
    let h := (Sweep.run sampleHost .standard (Setup.standard.document "t") ⟨false, [], []⟩).2.2
    h.launches.length = 4 ∧ h.machines.length = 3 ∧ ∀ m ∈ h.machines, m.IsReaped := by
  obtain ⟨-, -, hreaped, -⟩ := children_in_turn sampleHost_startsOn .standard
    (Setup.standard.document "t") ⟨false, [], []⟩ rfl rfl
  exact ⟨by decide +kernel, by decide +kernel, hreaped⟩

end CompressionSweep
