import CompressionSweep.Proofs.Call.Characters
import CompressionSweep.Proofs.Call.Delivery

/-! The output of a child does not have to come in pieces that are lines, or whole characters. -/

namespace CompressionSweep.Call.Machine

/-- What the actions of an execution tell, each in the state that it finds. -/
def collect {β : Type} (f : Machine → Action → List β) (m : Machine) : List Action → List β
  | [] => []
  | a :: as =>
    f m a ++ match m.step a with
      | some m' => collect f m' as
      | none => []

theorem collect_append {β : Type} {f : Machine → Action → List β} {m m' : Machine}
    {as bs : List Action} (h : m.after as = some m') :
    m.collect f (as ++ bs) = m.collect f as ++ m'.collect f bs := by
  induction as generalizing m with
  | nil =>
    obtain rfl := Option.some.inj h
    rfl
  | cons a as ih =>
    rw [after, List.foldlM_cons] at h
    obtain ⟨m₁, ha, has⟩ := Option.bind_eq_some_iff.mp h
    rw [List.cons_append, collect, collect, ha]
    dsimp only
    rw [ih has, List.append_assoc]

theorem collect_singleton {β : Type} (f : Machine → Action → List β) (m : Machine) (a : Action) :
    m.collect f [a] = f m a := by
  rw [collect]
  split <;> exact List.append_nil _

def chunkOf (m : Machine) : Action → List Bytes
  | .read count => [m.pipe.take count]
  | _ => []

def messageOf (m : Machine) : Action → List Message
  | .send => (m.nextMessage?.map (fun p => .line p.1)).toList
  | .readFailure cause => [.failure cause]
  | _ => []

/-- The bytes that the reader takes from the pipe, read by read. -/
def chunks (m : Machine) (as : List Action) : List Bytes := m.collect chunkOf as

def sent (m : Machine) (as : List Action) : List Message := m.collect messageOf as

/-- The books of a reader that has taken `chunks` of the output `out` and sent `messages`. However
the output goes on, its lines are those that have been sent and those of what is left. -/
structure Reading (out : Bytes) (chunks : List Bytes) (messages : List Message) (m : Machine) :
    Prop where
  ended : m.EndIsFinal
  taken : chunks.flatten ++ m.pipe = out
  accounts : ∀ more, (m.sawEnd = true → more = []) → linesOf (out ++ more) =
    messages.filterMap Message.line? ++ linesOf (m.buffer ++ m.pipe ++ more)
  finished : m.hasSender = false →
    m.sawEnd = true ∧ m.buffer = [] ∨ ∃ cause, .failure cause ∈ messages

variable {out : Bytes} {cs : List Bytes} {ms : List Message} {m m' : Machine} {a : Action}
  {as : List Action}

theorem Moves.reading (hm : Moves m a m') (h : m.Reading out cs ms) :
    m'.Reading (out ++ a.output) (cs ++ m.chunkOf a) (ms ++ m.messageOf a) := by
  refine ⟨hm.endIsFinal h.ended, ?_, ?_, ?_⟩
  · cases hm with
    | write held => simp [Action.output, chunkOf, ← h.taken]
    | @read count sender => simp [Action.output, chunkOf, ← h.taken]
    | _ => simpa [Action.output, chunkOf, abandon] using h.taken
  · cases hm with
    | @write b held =>
      intro more _
      -- Somebody holds the pipe, so its end cannot have been seen.
      have hopen : m.sawEnd = true → b ++ more = [] := fun hsaw => by
        rw [(h.ended hsaw).2] at held
        cases held
      simpa [Action.output, messageOf] using h.accounts (b ++ more) hopen
    | @read count sender =>
      intro more hmore
      have hlines := h.accounts more hmore
      rw [← List.take_append_drop count m.pipe, ← List.append_assoc] at hlines
      simpa [Action.output, messageOf] using hlines
    | seeEnd empty released =>
      intro more hmore
      simpa [Action.output, messageOf] using h.accounts more (fun _ => hmore rfl)
    | @send line rest sender room next =>
      intro more hmore
      have hlines := h.accounts more hmore
      rw [linesOf_nextMessage? next h.ended more hmore] at hlines
      simpa [Action.output, messageOf, next, Message.line?] using hlines
    | readFailure =>
      intro more hmore
      simpa [Action.output, messageOf, List.filterMap_cons, Message.line?] using
        h.accounts more hmore
    | _ => simpa [Action.output, messageOf, abandon] using h.accounts
  · cases hm with
    | read sender => exact fun hgone => absurd (sender.symm.trans hgone) (by decide)
    | send sender => exact fun hgone => absurd (sender.symm.trans hgone) (by decide)
    | @readFailure cause => exact fun _ => .inr ⟨cause, by simp [messageOf]⟩
    | seeEnd =>
      intro hgone
      rcases h.finished hgone with hend | ⟨cause, hcause⟩
      · exact .inl ⟨rfl, hend.2⟩
      · exact .inr ⟨cause, List.mem_append_left _ hcause⟩
    | hangUp sawEnd nothing => exact fun _ => .inl ⟨sawEnd, nothing⟩
    | _ => simpa [messageOf, abandon] using h.finished

theorem reading_after {now : Nat} {limit : Option Nat} {interrupted : Bool}
    (h : (start now limit interrupted).after as = some m) :
    m.Reading (output as) ((start now limit interrupted).chunks as)
      ((start now limit interrupted).sent as) := by
  induction as using List.reverseRecOn generalizing m with
  | nil =>
    obtain rfl := Option.some.inj h
    exact ⟨nofun, rfl, fun _ _ => rfl, nofun⟩
  | append_singleton as a ih =>
    obtain ⟨m₁, has, ha⟩ := after_append.mp h
    have hmoves := (moves_of_step (after_singleton.mp ha)).reading (ih has)
    rw [chunks, sent, collect_append has, collect_append has, collect_singleton,
      collect_singleton, output_append]
    simpa [output, chunks, sent] using hmoves

theorem mem_sent {x : Message} (h : x ∈ m.sent as) :
    (∃ b, x = .line b) ∨ ∃ cause, Action.readFailure cause ∈ as := by
  induction as generalizing m with
  | nil => exact absurd h List.not_mem_nil
  | cons a as ih =>
    rcases List.mem_append.mp h with h | h
    · cases a with
      | send =>
        obtain ⟨p, -, rfl⟩ := Option.map_eq_some_iff.mp (Option.mem_toList.mp h)
        exact .inl ⟨_, rfl⟩
      | readFailure cause => exact .inr ⟨cause, List.mem_cons_self⟩
      | _ => exact absurd h List.not_mem_nil
    · split at h
      · exact (ih h).imp_right (fun ⟨cause, hcause⟩ => ⟨cause, List.mem_cons_of_mem a hcause⟩)
      · exact absurd h List.not_mem_nil

theorem map_line_filterMap {ms : List Message} (h : ∀ x ∈ ms, ∃ b, x = .line b) :
    (ms.filterMap Message.line?).map .line = ms := by
  induction ms with
  | nil => rfl
  | cons x ms ih =>
    obtain ⟨⟨b, rfl⟩, hrest⟩ := List.forall_mem_cons.mp h
    rw [List.filterMap_cons, Message.line?]
    dsimp only
    rw [List.map_cons, ih hrest]

theorem Reading.sent_eq (h : m.Reading out cs ms) (hms : ∀ x ∈ ms, ∃ b, x = .line b)
    (hgone : m.hasSender = false) : cs.flatten = out ∧ ms = (linesOf out).map .line := by
  rcases h.finished hgone with ⟨hend, hbuffer⟩ | ⟨cause, hcause⟩
  · have hpipe := (h.ended hend).1
    have htaken := h.taken
    have hlines := h.accounts [] (fun _ => rfl)
    rw [hpipe, List.append_nil] at htaken
    rw [hpipe, hbuffer] at hlines
    have hsent : linesOf out = ms.filterMap Message.line? := by simpa [linesOf] using hlines
    rw [hsent, map_line_filterMap hms]
    exact ⟨htaken, rfl⟩
  · obtain ⟨b, hb⟩ := hms _ hcause
    cases hb

/-! ## Every way to cut a stream -/

/-- The reads of some execution that does not fail to read. -/
def Reads (m : Machine) (cs : List Bytes) (m' : Machine) : Prop :=
  ∃ as, m.after as = some m' ∧ m.chunks as = cs ∧ ∀ cause, Action.readFailure cause ∉ as

theorem Reads.trans {m₁ m₂ : Machine} {cs' : List Bytes} (h : m.Reads cs m₁)
    (h' : m₁.Reads cs' m₂) : m.Reads (cs ++ cs') m₂ := by
  obtain ⟨as, has, rfl, hfine⟩ := h
  obtain ⟨as', has', rfl, hfine'⟩ := h'
  refine ⟨as ++ as', after_append.mpr ⟨m₁, has, has'⟩, collect_append has, fun cause hmem => ?_⟩
  exact (List.mem_append.mp hmem).elim (hfine cause) (hfine' cause)

/-- A call whose reader and consumer have done all that they can, with a line begun. -/
def resting (begun : Bytes) (received : List String) : Machine :=
  { start 0 none false with buffer := begun, received, count := received.length }

theorem resting_takes {chunk : Bytes} (h : chunk ≠ []) (begun : Bytes) (received : List String) :
    (resting begun received).Reads [chunk] (resting (begun ++ chunk) received) :=
  ⟨[.write chunk, .read chunk.length], by simp [after, step, resting, start, h],
    by simp [chunks, collect, chunkOf, step, resting, start, h], by simp⟩

theorem resting_passes {begun line rest : Bytes} (h : firstLine? begun = some (line, rest))
    (received : List String) :
    (resting begun received).Reads [] (resting rest (lineText line :: received)) :=
  ⟨[.send, .check, .receive],
    by simp [after, step, resting, start, check, take, isDue, nextMessage?, h, capacity],
    by simp [chunks, collect, chunkOf, step, resting, start, check, isDue, nextMessage?, h,
      capacity], by simp⟩

theorem exists_pass (begun : Bytes) (received : List String) :
    ∃ begun' received', (resting begun received).Reads [] (resting begun' received') ∧
      firstLine? begun' = none := by
  induction begun using by_firstLine generalizing received with
  | unended begun h => exact ⟨begun, received, ⟨[], rfl, rfl, by simp⟩, h⟩
  | next begun line rest h ih =>
    obtain ⟨begun', received', hreads, hnone⟩ := ih (lineText line :: received)
    exact ⟨begun', received', (resting_passes h received).trans hreads, hnone⟩

theorem exists_reads (h : ∀ chunk ∈ cs, chunk ≠ []) (begun : Bytes) (received : List String) :
    ∃ begun' received', (resting begun received).Reads cs (resting begun' received') ∧
      firstLine? begun' = none := by
  induction cs generalizing begun received with
  | nil => exact exists_pass begun received
  | cons chunk cs ih =>
    -- What has been begun grows by the chunk; the lines in it can wait until the last one.
    obtain ⟨hchunk, hcs⟩ := List.forall_mem_cons.mp h
    obtain ⟨begun', received', hreads, hnone⟩ := ih hcs (begun ++ chunk) received
    exact ⟨begun', received', (resting_takes hchunk begun received).trans hreads, hnone⟩

/-- The same call when the child has ended and the reader has seen the end of the output. -/
def closing (begun : Bytes) (received : List String) : Machine :=
  { resting begun received with child := .ended (some 0), hasWriter := false, sawEnd := true }

theorem resting_closes (begun : Bytes) (received : List String) :
    (resting begun received).Reads [] (closing begun received) :=
  ⟨[.close, .exit (some 0), .seeEnd], rfl, rfl, by simp⟩

theorem closing_passes {begun : Bytes} (hbegun : begun ≠ []) (h : firstLine? begun = none)
    (received : List String) :
    (closing begun received).Reads [] (closing [] (lineText begun :: received)) :=
  ⟨[.send, .check, .receive],
    by simp [after, step, closing, resting, start, check, take, isDue, nextMessage?, h, hbegun,
      capacity],
    by simp [chunks, collect, chunkOf, step, closing, resting, start, check, isDue, nextMessage?,
      h, hbegun, capacity], by simp⟩

theorem resting_ends {begun : Bytes} (h : firstLine? begun = none) (received : List String) :
    ∃ m', (resting begun received).Reads [] m' ∧ m'.phase = .returned (.exited (some 0)) := by
  have hends : ∀ received, ∃ m', (closing [] received).Reads [] m' ∧
      m'.phase = .returned (.exited (some 0)) := fun received =>
    ⟨_, ⟨[.hangUp, .check, .disconnect, .reap, .conclude], rfl, rfl, by simp⟩, rfl⟩
  by_cases hbegun : begun = []
  · subst hbegun
    obtain ⟨m', hreads, hphase⟩ := hends received
    exact ⟨m', (resting_closes [] received).trans hreads, hphase⟩
  · obtain ⟨m', hreads, hphase⟩ := hends (lineText begun :: received)
    exact ⟨m', (resting_closes begun received).trans
      ((closing_passes hbegun h received).trans hreads), hphase⟩

/-- What a call makes of the pieces in which its reader takes the output of its child. Whatever the
pieces are, some call takes just these and comes to its end. In every call that takes them a reader
that is gone, and not because a read has failed, has sent each line with its line end, in order, and
then what is left if there is something left. The strings handed on are at any time the first ones
of the output decoded as a whole and split at its newlines. They are all of them if the call tells
how the child ended, and those of a text if the output is the UTF-8 of that text. No string holds a
newline. -/
theorem lines_reassembled (cs : List Bytes) :
    ((∀ chunk ∈ cs, chunk ≠ []) → ∃ as m, (start 0 none false).after as = some m ∧
      (start 0 none false).chunks as = cs ∧ (∀ cause, Action.readFailure cause ∉ as) ∧
      m.hasSender = false ∧ m.phase = .returned (.exited (some 0))) ∧
    ∀ now limit interrupted as m, (start now limit interrupted).after as = some m →
      (start now limit interrupted).chunks as = cs →
      ((∀ cause, Action.readFailure cause ∉ as) → m.hasSender = false →
        (start now limit interrupted).sent as = (segments cs.flatten).map .line) ∧
      m.lines <+: textLines (Text.lossy (cs.flatten ++ m.pipe)) ∧
      (∀ status, m.phase = .returned (.exited status) →
        m.lines = textLines (Text.lossy cs.flatten) ∧
        ∀ text, cs.flatten = Text.utf8 text → m.lines = textLines text) ∧
      ∀ line ∈ m.lines, '\n' ∉ line.toList := by
  refine ⟨fun hcs => ?_, fun now limit interrupted as m h hchunks => ?_⟩
  · obtain ⟨begun, received, hreads, hnone⟩ := exists_reads hcs [] []
    obtain ⟨m, hends, hphase⟩ := resting_ends hnone received
    obtain ⟨as, has, hchunks, hfine⟩ := hreads.trans hends
    have hpast : m.phase.IsPastOutput := by rw [hphase]; trivial
    exact ⟨as, m, has, hchunks.trans (List.append_nil cs), hfine,
      ((flow_after has).drained hpast).2.1, hphase⟩
  have hreading := reading_after h
  have hflow := flow_after h
  rw [hchunks] at hreading
  refine ⟨fun hfine hgone => ?_, ?_, fun status hphase => ?_, fun line hline => ?_⟩
  · have hlines : ∀ x ∈ (start now limit interrupted).sent as, ∃ b, x = .line b := fun x hx =>
      (mem_sent hx).resolve_right (fun ⟨cause, hcause⟩ => hfine cause hcause)
    obtain ⟨hall, hsent⟩ := hreading.sent_eq hlines hgone
    rw [hsent, hall, linesOf_eq_segments]
  · rw [hreading.taken, ← map_lineText_linesOf]
    exact hflow.lines_prefix
  · have hpast : m.phase.IsPastOutput := by rw [hphase]; trivial
    -- The end of the pipe has been seen, so the chunks are the whole output.
    have hall := hreading.taken
    rw [(hflow.ended (hflow.drained hpast).2.2.1).1, List.append_nil] at hall
    have hlines := (hflow.lines_eq hpast).trans (map_lineText_linesOf _)
    rw [← hall] at hlines
    refine ⟨hlines, fun text htext => ?_⟩
    rwa [htext, Text.lossy_utf8] at hlines
  · obtain ⟨b, hb, rfl⟩ := List.mem_map.mp (hflow.lines_prefix.subset hline)
    exact lineEnd_not_mem_lineText hb

/-- The first character comes in two reads, the second is cut off by a line end, two carriage
returns stand in two reads, and the last line has no line end. -/
def reassemblySample : List Action :=
  [.write [0xC3], .check, .read 1, .write [0xA9, 0xE2, 0x82], .read 2, .write [0x0A, 97, 13],
    .read 4, .send, .receive, .write [13, 0x0A, 98, 13], .close, .exit none, .read 9, .send, .check,
    .seeEnd, .send, .receive, .hangUp, .check, .receive, .check, .disconnect, .reap, .conclude]

theorem lines_reassembled_sample :
    ∃ m, (start 0 none false).after reassemblySample = some m ∧
      m.phase = .returned (.exited none) ∧
      (start 0 none false).chunks reassemblySample =
        [[0xC3], [0xA9, 0xE2], [0x82, 0x0A, 97, 13], [13, 0x0A, 98, 13]] ∧
      (start 0 none false).sent reassemblySample =
        [.line [0xC3, 0xA9, 0xE2, 0x82, 0x0A], .line [97, 13, 13, 0x0A], .line [98, 13]] ∧
      m.lines = ["é\uFFFD", "a", "b"] ∧ ∀ line ∈ m.lines, '\n' ∉ line.toList := by
  have hend : ((start 0 none false).after reassemblySample).map
      (fun m => (m.phase, m.hasSender)) = some (.returned (.exited none), false) := by
    decide +kernel
  obtain ⟨m, h, hm⟩ := Option.map_eq_some_iff.mp hend
  obtain ⟨hphase, hgone⟩ := Prod.mk.inj hm
  have hchunks : (start 0 none false).chunks reassemblySample =
      [[0xC3], [0xA9, 0xE2], [0x82, 0x0A, 97, 13], [13, 0x0A, 98, 13]] := by decide +kernel
  obtain ⟨hsent, -, hlines, hclean⟩ := (lines_reassembled _).2 0 none false reassemblySample m h
    hchunks
  exact ⟨m, h, hphase, hchunks, (hsent (by simp [reassemblySample]) hgone).trans (by decide),
    (hlines none hphase).1.trans (by decide +kernel), hclean⟩

end CompressionSweep.Call.Machine
