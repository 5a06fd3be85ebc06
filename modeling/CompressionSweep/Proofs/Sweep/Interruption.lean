import CompressionSweep.Proofs.Call.Interruption
import CompressionSweep.Proofs.Sweep.Control
import CompressionSweep.Proofs.Sweep.Processes

/-! What the interrupt flag does to a call and to a whole sweep, at whatever moment it is raised. -/

namespace CompressionSweep

open Call

namespace Host

variable {limit : Option Nat} {i : Invocation} {h h' : Host} {r : Response}

/-- What a call answers whose child is started while the flag is up. -/
def Answers (r : Response) (l : Launch) : Prop :=
  l.succeeded = true → l.raised = true → r = ⟨[], .failed .interrupted⟩

theorem answer_of_raised {now : Nat} {as : List Action} {m : Machine} {e : Ending}
    (execution : (Machine.start now limit true).after as = some m)
    (returned : m.phase = .returned e) : m.response = ⟨[], .failed .interrupted⟩ := by
  obtain ⟨hlines, hstops⟩ := Machine.stopsNext_of_raised execution
  have hinterrupted : m.phase = .returned (.failed .interrupted) :=
    hstops.resolve_right (fun hchecking => by cases returned.symm.trans hchecking.1)
  rw [Machine.response, hlines, hinterrupted]

theorem Called.launch (hcall : h.Called limit i r h') :
    ∃ l, h'.launches = h.launches ++ [l] ∧ Answers r l ∧
      (h.raised = true → l.raised = true) ∧ (l.raised = true → h'.raised = true) := by
  cases hcall with
  | @refused h₁ cause before =>
    exact ⟨_, congrArg (· ++ _) before.launches, nofun, before.raised, id⟩
  | @ran h₁ h₂ now as m e before execution returned meanwhile =>
    refine ⟨_, congrArg (· ++ _) before.launches, fun _ hup => ?_, before.raised, fun hup => ?_⟩
    · change h₁.raised = true at hup
      rw [hup] at execution
      exact answer_of_raised execution returned
    · exact Machine.interrupted_after execution hup

/-- The calls that have been made are those of the launches, and the flag has not been taken
back. -/
structure Oversees (calls : List Attempt) (h : Host) : Prop where
  answers : List.Forall₂ (fun c l => Answers c.response l) calls h.launches
  raised : h.launches.Pairwise (fun l l' => l.raised = true → l'.raised = true)
  upSince : ∀ l ∈ h.launches, l.raised = true → h.raised = true

theorem oversees_nil (hlaunches : h.launches = []) : Oversees [] h := by
  refine ⟨?_, ?_, ?_⟩ <;> rw [hlaunches]
  · exact .nil
  · exact .nil
  · exact nofun

theorem Oversees.later {calls : List Attempt} (ho : Oversees calls h) (later : h.Later h') :
    Oversees calls h' := by
  refine ⟨?_, ?_, fun l hl hup => later.raised (ho.upSince l (later.launches ▸ hl) hup)⟩
  · rw [later.launches]
    exact ho.answers
  · rw [later.launches]
    exact ho.raised

theorem Oversees.called {calls : List Attempt} (ho : Oversees calls h)
    (hcall : h.Called limit i r h') {c : Attempt} (hc : c.response = r) :
    Oversees (calls ++ [c]) h' := by
  obtain ⟨l, hlaunches, hanswers, hbefore, hafter⟩ := hcall.launch
  have hsince : ∀ l' ∈ h.launches, l'.raised = true → l.raised = true :=
    fun l' hl' hup => hbefore (ho.upSince l' hl' hup)
  refine ⟨?_, ?_, ?_⟩
  · rw [hlaunches]
    exact List.rel_append ho.answers (.cons (hc ▸ hanswers) .nil)
  · rw [hlaunches]
    refine List.pairwise_append.mpr ⟨ho.raised, List.pairwise_singleton _ _, ?_⟩
    exact fun l' hl' => List.forall_mem_singleton.mpr (hsince l' hl')
  · rw [hlaunches]
    refine List.forall_mem_append.mpr ⟨fun l' hl' hup => hafter (hsince l' hl' hup), ?_⟩
    exact List.forall_mem_singleton.mpr hafter

end Host

variable {ω : Type} {env : Surroundings ω} {host : ω → Host} {limit : Option Nat}

theorem Surroundings.StartsOn.oversees (henv : env.StartsOn host limit) :
    Sweep.Keeps env.recorded (fun _ w => (host w.1).Oversees w.2.calls) where
  calling _ _ _ _ _ _ hw := hw.later (henv.note _ _ _ _)
  called _ _ _ _ _ _ _ hw := hw.later (henv.note _ _ _ _)
  answer _ _ _ hw := hw.called (henv.answer _ _) rfl
  accept _ _ _ _ _ _ _ _ hw := (hw.later (henv.note _ _ _ _)).later (henv.persist _ _)

theorem countP_le_one_of_last {α : Type} {p : α → Bool} {as : List α}
    (h : ∀ before a after, as = before ++ a :: after → p a = true → after = []) :
    as.countP p ≤ 1 := by
  induction as with
  | nil => exact Nat.zero_le 1
  | cons a as ih =>
    cases hp : p a with
    | true =>
      rw [h [] a as rfl hp, List.countP_singleton]
      split <;> decide
    | false =>
      rw [List.countP_cons_of_neg (Bool.eq_false_iff.mp hp)]
      exact ih (fun before b after hsplit => h (a :: before) b after (congrArg (a :: ·) hsplit))

theorem countP_le_of_forall₂ {α β : Type} {R : α → β → Prop} {p : α → Bool} {q : β → Bool}
    (hR : ∀ a b, R a b → q b = true → p a = true) {as : List α} {bs : List β}
    (h : List.Forall₂ R as bs) : bs.countP q ≤ as.countP p := by
  induction h with
  | nil => exact Nat.le_refl _
  | @cons a b as bs hab _ ih =>
    rw [List.countP_cons, List.countP_cons]
    have hfirst : (if q b then 1 else 0) ≤ if p a then 1 else 0 := by
      split
      · rename_i hq
        exact Nat.le_of_eq (if_pos (hR a b hab hq)).symm
      · exact Nat.zero_le _
    omega

namespace Recorded

variable {s : Setup} {d : Document} {r : Outcome × Document × ω × Log} (h : Recorded env s d r)
  {before after : List Attempt} {c : Attempt}

include h

theorem interrupted_last (hcalls : r.2.2.2.calls = before ++ c :: after)
    (hc : c.response.ending = .failed .interrupted) : after = [] := by
  cases after with
  | nil => rfl
  | cons c' after =>
    have hmem : c ∈ r.2.2.2.calls := by simp [hcalls]
    have hmem' : c' ∈ r.2.2.2.calls := by simp [hcalls]
    have hordered := h.called.ordered (runNumbers_increasing s.runs)
    rw [hcalls] at hordered
    have hbefore : c.Before c'.index c'.run :=
      (List.pairwise_cons.mp (List.pairwise_append.mp hordered).2.1).1 c' List.mem_cons_self
    obtain ⟨hplace, h₁, h₂, -⟩ := h.place c' hmem'
    have hquiet := (h.called_iff (List.getElem?_eq_some_iff.mp hplace).1 h₁ h₂).mp
      ⟨c', hmem', rfl, rfl⟩
    exact absurd hc (hquiet.2 c hmem hbefore)

theorem countP_interrupted_le_one :
    r.2.2.2.calls.countP (fun c => c.response.ending == .failed .interrupted) ≤ 1 :=
  countP_le_one_of_last (fun _ _ _ hcalls hc => h.interrupted_last hcalls (eq_of_beq hc))

theorem pending_behind (hcalls : r.2.2.2.calls = before ++ [c]) {k : Nat} (hk : c.slot s < k)
    {p : Pair} (hp : r.1.pairs[k]? = some p) : p.state = .pending ∧ p.records = 0 := by
  have hslots := h.slots
  rw [hcalls] at hslots
  have hne : ∀ c' ∈ r.2.2.2.calls, c'.slot s ≠ k := by
    rw [hcalls]
    refine List.forall_mem_append.mpr ⟨fun c' hc' => ?_, ?_⟩
    · have hless := (List.pairwise_append.mp hslots).2.2 c' hc' c (List.mem_singleton_self c)
      omega
    · exact List.forall_mem_singleton.mpr (Nat.ne_of_lt hk)
  rw [h.pairs, (getElem?_marks env.extract h.slots _ _).2 hne] at hp
  obtain ⟨a, -, hp⟩ := List.mem_flatMap.mp (List.mem_of_getElem? hp)
  obtain ⟨run, -, rfl⟩ := List.mem_map.mp hp
  exact ⟨rfl, rfl⟩

end Recorded

/-- What the interrupt flag does, at whatever moment it is raised. A call whose child is started
with the flag up hands on no line, and one in whose handling of a line the flag is raised hands on
no further line; all that either still does is to look at the flag and to return as interrupted. A
call tells how its child ended only if the flag was down when it looked at it for the last time.
So in a sweep at most one child is started with the flag up, and no measurement is taken from it. A
call that was interrupted is the last one; its pair says so, all pairs behind it are pending, and
the sweep has been interrupted. -/
theorem interrupt_safe (henv : env.StartsOn host limit) (s : Setup) (d : Document) (w : ω)
    (hlaunches : (host w).launches = []) :
    (∀ now limit as m, (Machine.start now limit true).after as = some m →
      m.lines = [] ∧ m.StopsNext) ∧
    (∀ (m₀ m₁ m : Machine) line as as', m₀.step .receive = some m₁ →
      m₁.lines = m₀.lines ++ [line] → .check ∉ as →
      m₁.after (as ++ .raise :: as') = some m → m.lines = m₁.lines ∧ m.StopsNext) ∧
    (∀ now limit interrupted as m status,
      (Machine.start now limit interrupted).after as = some m →
      m.phase = .returned (.exited status) →
        interrupted = false ∧ ∃ as₁ as₂, as = as₁ ++ .conclude :: as₂ ∧ .raise ∉ as₁) ∧
    let r := Sweep.run env.recorded s d (w, Log.empty)
    let calls := r.2.2.2.calls
    let launches := (host r.2.2.1).launches
    Sweep.run env s d w = (r.1, r.2.1, r.2.2.1) ∧
    List.Forall₂ (fun c l => l.succeeded = true → l.raised = true →
      c.response = ⟨[], .failed .interrupted⟩ ∧ c.records env.extract = []) calls launches ∧
    launches.Pairwise (fun l l' => l.raised = true → l'.raised = true) ∧
    launches.countP (fun l => l.succeeded && l.raised) ≤ 1 ∧
    r.2.1 = calls.foldl (Attempt.file env.extract) d ∧
    ∀ before c after, calls = before ++ c :: after → c.response.ending = .failed .interrupted →
      after = [] ∧
      r.1.pairs[c.slot s]? =
        some ⟨c.algorithm, c.run, .failed .interrupted, (c.records env.extract).length⟩ ∧
      (∀ k p, c.slot s < k → r.1.pairs[k]? = some p → p.state = .pending ∧ p.records = 0) ∧
      r.1.interrupted = true := by
  refine ⟨fun now limit as m => Machine.stopsNext_of_raised,
    fun m₀ m₁ m line as as' => Machine.raised_in_handling,
    fun now limit interrupted as m status => Machine.concluded_before_raise, ?_⟩
  intro r calls launches
  have hrecorded : Recorded env s d r := run_recorded env s d w
  have hoversees : (host r.2.2.1).Oversees calls :=
    henv.oversees.run (fun d w hw => hw.later (henv.persist d w.1)) s (d := d)
      (Host.oversees_nil hlaunches)
  refine ⟨run_mapWorld env.projects_recorded s d (w, Log.empty), ?_, hoversees.raised, ?_,
    hrecorded.document, ?_⟩
  · refine hoversees.answers.imp (fun c l hanswers hok hup => ?_)
    have hresponse := hanswers hok hup
    exact ⟨hresponse, by rw [Attempt.records, hresponse]; rfl⟩
  · refine Nat.le_trans (countP_le_of_forall₂ (fun c l hanswers hl => ?_) hoversees.answers)
      hrecorded.countP_interrupted_le_one
    obtain ⟨hok, hup⟩ := Bool.and_eq_true_iff.mp hl
    rw [hanswers hok hup]
    rfl
  · intro before c after hcalls hc
    obtain rfl := hrecorded.interrupted_last hcalls hc
    have hmem : c ∈ calls := by simp [hcalls]
    refine ⟨rfl, ?_, fun k p hk hp => hrecorded.pending_behind hcalls hk hp,
      hrecorded.interrupted.mpr ⟨c, hmem, Ending.state_eq_interrupted.mpr hc⟩⟩
    have hpair := hrecorded.called_pair c hmem
    rwa [hc] at hpair

theorem interrupt_safe_sample :
    let r := Sweep.run sampleHost.recorded .standard (Setup.standard.document "t")
      (⟨false, [], []⟩, Log.empty)
    r.2.2.1.launches.map (fun l => (l.succeeded, l.raised)) =
      [(true, false), (false, false), (true, false), (true, true)] ∧
    r.1.interrupted = true := by
  obtain ⟨-, -, -, -, -, -, -, -, hstopped⟩ := interrupt_safe sampleHost_startsOn .standard
    (Setup.standard.document "t") ⟨false, [], []⟩ rfl
  have hlast : (Sweep.run sampleHost.recorded .standard (Setup.standard.document "t")
      (⟨false, [], []⟩, Log.empty)).2.2.2.calls.getLast?.map (·.response.ending) =
        some (.failed .interrupted) := by decide +kernel
  obtain ⟨c, hc, hending⟩ := Option.map_eq_some_iff.mp hlast
  obtain ⟨before, hcalls⟩ := List.getLast?_eq_some_iff.mp hc
  exact ⟨by decide +kernel, (hstopped before c [] hcalls hending).2.2.2⟩

end CompressionSweep
