import LedgerClient.Proofs.Channel.History

/-!
# Who gets a turn

Whatever happens to a channel may give turns to others, and takes none away. Whoever waits for a
stream to close gets a turn when it does, and so does the caller of an operation when one of its
requests fails.

## Main definitions

* `Channel.Rings`: turns are only added, and those who wait for a stream go on waiting or get one

## Main results

* `Channel.Stream.watchers_apply`: nobody who waits for a stream to close is forgotten
* `Channel.rings_perform`: in every moment those who wait are served
* `Channel.exists_turns_teardown`: whoever waits for an answer when the reader ends gets a turn
-/

namespace LedgerClient.Channel

open Rpc (BatchCall Frame Param)

variable {c d after : Channel} {id : Int} {index k : Nat} {f : Stream → Stream} {frame : Frame}
  {rest : List Frame}

/-- Turns are only added. Where a stream was open, those who wait for it to close wait for it
still, or have got a turn. -/
def Rings (c d : Channel) : Prop :=
  ∃ new, d.turns = c.turns ++ new ∧ ∀ (k : Nat) (s : Stream), c.streams[k]? = some s →
    ∃ t, d.streams[k]? = some t ∧ (s.isClosed = false → ∀ task ∈ s.watchers,
      t.isClosed = false ∧ task ∈ t.watchers ∨ Turn.watcher task ∈ new)

namespace Rings

theorem of_append {more : List Stream} {new : List Turn} (hstreams : d.streams = c.streams ++ more)
    (hturns : d.turns = c.turns ++ new) : Rings c d := by
  refine ⟨new, hturns, fun k s hs => ⟨s, ?_, fun hopen task htask => .inl ⟨hopen, htask⟩⟩⟩
  rw [hstreams, List.getElem?_append_left (List.getElem?_eq_some_iff.mp hs).1, hs]

theorem of_streams {new : List Turn} (hstreams : d.streams = c.streams)
    (hturns : d.turns = c.turns ++ new) : Rings c d :=
  .of_append (hstreams.trans (List.append_nil _).symm) hturns

theorem of_same (hstreams : d.streams = c.streams) (hturns : d.turns = c.turns) : Rings c d :=
  .of_streams hstreams (hturns.trans (List.append_nil _).symm)

theorem refl (c : Channel) : Rings c c := .of_same rfl rfl

theorem trans (h : Rings c d) (h' : Rings d after) : Rings c after := by
  obtain ⟨new, hturns, hwait⟩ := h
  obtain ⟨new', hturns', hwait'⟩ := h'
  refine ⟨new ++ new', by rw [hturns', hturns, List.append_assoc], fun k s hs => ?_⟩
  obtain ⟨t, ht, hrung⟩ := hwait k s hs
  obtain ⟨u, hu, hrung'⟩ := hwait' k t ht
  refine ⟨u, hu, fun hopen task htask => ?_⟩
  rcases hrung hopen task htask with ⟨hstill, hmem⟩ | hnew
  · -- Who waits still may get a turn later.
    rcases hrung' hstill task hmem with hwaits | hnew'
    · exact .inl hwaits
    · exact .inr (List.mem_append_right _ hnew')
  · exact .inr (List.mem_append_left _ hnew)

theorem foldl {α : Type} {g : Channel → α → Channel} (h : ∀ c a, Rings c (g c a)) (l : List α) :
    Rings c (l.foldl g c) := by
  induction l generalizing c with
  | nil => exact .refl c
  | cons a l ih => exact (h c a).trans ih

end Rings

/-! ## Those who wait for a stream to close -/

namespace Stream

variable {s : Stream} {task : Nat}

@[simp] theorem watchers_put (item : Item) : (s.put item).watchers = s.watchers := by
  rw [put_eq]

@[simp] theorem watchers_close (how : Option Fault) : (s.close how).watchers = s.watchers := by
  unfold close
  split <;> simp

@[simp] theorem watchers_silence : s.silence.watchers = s.watchers :=
  watchers_close none

@[simp] theorem watchers_accept (reply : Rpc.Reply) : (s.accept reply).watchers = s.watchers := by
  unfold accept
  split
  · split <;> simp
  · simp

@[simp] theorem watchers_proceed : s.proceed.watchers = s.watchers := by
  unfold proceed
  repeat' split
  all_goals simp

@[simp] theorem watchers_look : (s.look task).1.watchers = s.watchers := by
  unfold look
  split <;> simp

@[simp] theorem watchers_receive : (s.receive task).1.watchers = s.watchers := by
  unfold receive
  split <;> simp

@[simp] theorem watchers_resume : (s.resume task).1.watchers = s.watchers := by
  unfold resume
  split <;> simp

@[simp] theorem watchers_leave : (s.leave task).watchers = s.watchers := by
  unfold leave
  split
  · dsimp only
    split
    · rfl
    · rw [wake_eq]
  · rfl

/-- Nobody who waits for a stream to close is forgotten. -/
theorem watchers_apply (change : Change) (s : Stream) :
    s.watchers ⊆ (change.apply s).watchers := by
  cases change with
  | watch task =>
    change _ ⊆ (s.watch task).watchers
    unfold watch
    split
    · exact List.Subset.refl _
    · exact List.subset_append_left _ _
  | _ => simp [Change.apply]

end Stream

/-! ## Streams -/

section Streams

theorem rings_setStream {s t : Stream} (hs : c.streams[index]? = some s)
    (hwatchers : s.watchers ⊆ t.watchers) : Rings c (c.setStream index t) := by
  have hturns : (c.setStream index t).turns = c.turns ++ stirred index s t := by
    rw [setStream, hs]
  refine ⟨_, hturns, fun k u hu => ?_⟩
  rw [getElem?_setStream]
  by_cases hk : index = k
  · subst hk
    cases hs.symm.trans hu
    rw [if_pos rfl, hu]
    refine ⟨t, rfl, fun hopen task htask => ?_⟩
    cases hclosed : t.isClosed with
    | false => exact .inl ⟨rfl, hwatchers htask⟩
    | true =>
      refine .inr (List.mem_append_left _ (List.mem_append_left _ ?_))
      rw [hopen, hclosed]
      exact List.mem_map_of_mem (hwatchers htask)
  · rw [if_neg hk]
    exact ⟨u, hu, fun hopen task htask => .inl ⟨hopen, htask⟩⟩

theorem rings_modifyStream (hwatchers : ∀ s, s.watchers ⊆ (f s).watchers) :
    Rings c (c.modifyStream index f) := by
  unfold modifyStream
  split
  · exact .refl c
  · next s hs => exact rings_setStream hs (hwatchers s)

theorem rings_orphan : Rings c (c.orphan index) := by
  unfold orphan
  split
  · exact .refl c
  · exact .of_streams rfl rfl

theorem rings_sweep : Rings c (c.sweep id index) := by
  unfold sweep
  split
  · exact .trans (d := c.deregister id) (.of_same rfl rfl) rings_orphan
  · exact .refl c

theorem rings_discard : Rings c (c.discard index) := by
  unfold discard
  split
  · exact .refl c
  · next s hs =>
    have hclosed : Rings c ((c.deregister s.id).modifyStream index (Stream.close none)) :=
      .trans (d := c.deregister s.id) (.of_same rfl rfl)
        (rings_modifyStream (Stream.watchers_apply (.close none)))
    dsimp only
    split
    · exact hclosed.trans rings_orphan
    · exact hclosed

theorem rings_begin (expected : Expected) (method : String) (params : List Param)
    (signalled : Bool) (broken : Option String) :
    Rings c (c.begin expected method params signalled broken).1 := by
  unfold begin
  split
  · exact .refl c
  · dsimp only
    split <;> exact .of_same rfl rfl

theorem rings_beginBatch (calls : List BatchCall) (signalled : Bool) (broken : Option String) :
    Rings c (c.beginBatch calls signalled broken).1 := by
  unfold beginBatch
  split
  · exact .refl c
  · exact .refl c
  · dsimp only
    split <;> exact .of_same rfl rfl

theorem rings_fail (fault : Fault) (id : Nat) : Rings c (fail fault c id) := by
  unfold fail
  split
  · exact .of_streams rfl rfl
  · exact .refl c

theorem rings_closeAll (fault : Fault) (entries : List (Int × Nat)) : Rings c
    (entries.foldl (fun c entry => c.modifyStream entry.2 (Stream.close (some fault))) c) :=
  .foldl (fun _ _ => rings_modifyStream (Stream.watchers_apply (.close _))) _

theorem rings_teardown (c : Channel) (reason : String) : Rings c (c.teardown reason) := by
  have hfailed : Rings c ((c.pending.map (·.1)).foldl (fail (c.lastFault reason)) c) :=
    .foldl (fun _ _ => rings_fail _ _) _
  exact (hfailed.trans (rings_closeAll _ _)).trans (.of_same rfl rfl)

end Streams

/-! ## Moments -/

section Moments

theorem rings_release (broken : Option String) : Rings c (c.release broken).1 := by
  unfold release
  split
  · exact .refl c
  · next orphans _ =>
    exact .trans (d := { c with orphans }) (.of_same rfl rfl) (rings_begin ..)

theorem rings_unsubscribe (index : Nat) (broken : Option String) :
    Rings c (c.unsubscribe index broken).1 := by
  have hsilence (id : Int) : Rings c ((c.deregister id).modifyStream index Stream.silence) :=
    .trans (d := c.deregister id) (.of_same rfl rfl)
      (rings_modifyStream (Stream.watchers_apply .silence))
  rcases unsubscribe_cases c index broken with heq | ⟨s, -, -, heq | ⟨method, params, heq⟩⟩
  · rw [heq]
    exact .refl c
  · rw [heq]
    exact hsilence s.id
  · rw [heq]
    exact (hsilence s.id).trans (rings_begin ..)

theorem rings_finish (op : Nat) (wake : Wake) : Rings c (c.finish op wake).1 := by
  rcases finish_cases c op wake with
    heq | ⟨o, result, -, -, -, ⟨heq, -⟩ | ⟨fault, index, -, -, heq⟩⟩
  · rw [heq]
    exact .refl c
  · rw [heq]
    exact .of_same rfl rfl
  · rw [heq]
    exact rings_discard.trans (.of_same rfl rfl)

theorem rings_consume (index : Nat) (change : Stream.Change)
    {f : Stream → Stream × Received} (hf : ∀ s, (f s).1 = change.apply s) :
    Rings c (c.consume index f).1 := by
  rw [consume_eq]
  refine rings_modifyStream fun s => ?_
  rw [hf]
  exact Stream.watchers_apply change s

theorem rings_step {event : Event} (h : event.reads = false) : Rings c (c.step event).1 := by
  cases event with
  | call | subscribe => exact rings_begin ..
  | batch => exact rings_beginBatch ..
  | release broken => exact rings_release broken
  | unsubscribe index broken => exact rings_unsubscribe index broken
  | gather => exact .of_same rfl rfl
  | finish op wake => exact rings_finish op wake
  | accept | proceed => exact nomatch h
  | start =>
    obtain ⟨reader, heq⟩ := step_start_eq c
    rw [heq]
    exact .of_same rfl rfl
  | fail reason =>
    rcases step_fail_cases c reason with ⟨-, heq⟩ | ⟨reader, -, heq⟩
    · rw [heq]
      exact rings_teardown c reason
    · rw [heq]
      exact .of_same rfl rfl
  | crash reason =>
    rcases step_crash_cases c reason with ⟨-, heq⟩ | heq
    · rw [heq]
      exact rings_teardown c _
    · rw [heq]
      exact .refl c
  | shut => exact .of_same rfl rfl
  | receive index task => exact rings_consume index (.receive task) fun _ => rfl
  | resume index task => exact rings_consume index (.resume task) fun _ => rfl
  | leave index task => exact rings_modifyStream (Stream.watchers_apply (.leave task))
  | watch index task => exact rings_modifyStream (Stream.watchers_apply (.watch task))

theorem rings_resolve (id : Int) (frame : Frame) : Rings c (c.resolve id frame) := by
  unfold resolve answer
  split
  · exact .refl c
  · split
    · exact .of_streams rfl rfl
    · exact .of_streams rfl rfl
    · exact .of_streams rfl rfl
    · split
      · exact .of_streams rfl rfl
      · split
        · exact .of_append rfl rfl
        · exact .of_streams rfl rfl

theorem rings_route (h : c.route frame = .ok after) : Rings c after := by
  unfold route at h
  split at h
  · cases h
    exact rings_resolve _ _
  · rcases notify_eq_ok h with ⟨-, rfl⟩ | ⟨index, s, next, -, hs, hoffer, rfl⟩
    · exact .refl _
    · have hwatchers : s.watchers ⊆ next.watchers := by
        rcases Stream.offer_cases hoffer with
          ⟨-, rfl⟩ | ⟨-, ⟨reply, -, rfl⟩ | ⟨fault, -, rfl⟩⟩
        · exact List.Subset.refl _
        · exact Stream.watchers_apply (.arrive reply) s
        · exact Stream.watchers_apply (.close (some fault)) s
      have hset := rings_setStream hs hwatchers
      unfold offered
      split
      · exact hset.trans (.of_same rfl rfl)
      · exact hset.trans rings_sweep
  · cases h
    unfold reject
    split
    · exact .refl _
    · exact .foldl (fun _ _ => rings_fail _ _) _
  · cases h
    exact .refl c

/-- **A moment takes no turn away, and whoever waits for a stream to close gets one when it
does.** -/
theorem rings_perform {act : Act} (hready : c.Ready act) : Rings c (c.perform act) := by
  cases act with
  | event event => exact rings_step hready
  | route frame rest =>
    change Rings c (c.take frame rest)
    unfold take
    split
    · exact rings_teardown c _
    · next hroute =>
      have hrouted := rings_route hroute
      split
      · exact hrouted.trans (.of_same rfl rfl)
      · exact hrouted
  | retry =>
    obtain ⟨id, index, rest, hstalled⟩ := hready
    change Rings c c.retry
    rw [retry, hstalled]
    have hproceed : Rings c (c.modifyStream index Stream.proceed) :=
      rings_modifyStream (Stream.watchers_apply .retry)
    dsimp only
    split
    · exact hproceed
    · exact (hproceed.trans (.of_same rfl rfl)).trans rings_sweep

end Moments

/-! ## Callers -/

section Callers

/-- A request that fails gives a turn to the caller of its operation. -/
theorem exists_turns_foldl_fail (fault : Fault) {ids : List Nat} {id : Nat} {op : Operation}
    (hop : op ∈ c.running) (hid : id ∈ op.ids) (hpending : c.isPending id = true)
    (hmem : id ∈ ids) : ∃ new, (ids.foldl (fail fault) c).turns = c.turns ++ new ∧
      Turn.caller op.id op.isBatch ∈ new := by
  induction ids generalizing c op with
  | nil => cases hmem
  | cons first ids ih =>
    by_cases hfirst : first = id
    · subst hfirst
      -- The request fails now; turns are only added later.
      obtain ⟨later, hlater, -⟩ : Rings (fail fault c first) (ids.foldl (fail fault) _) :=
        .foldl (fun _ _ => rings_fail _ _) ids
      have hnow : (fail fault c first).turns = c.turns ++
          (c.running.filter (·.ids.contains first)).map fun op => .caller op.id op.isBatch := by
        rw [fail, if_pos hpending]
        rfl
      have hcaller : op ∈ c.running.filter (·.ids.contains first) :=
        List.mem_filter.mpr ⟨hop, List.contains_iff_mem.mpr hid⟩
      have hcalled : Turn.caller op.id op.isBatch ∈ (c.running.filter (·.ids.contains first)).map
          fun op => .caller op.id op.isBatch := List.mem_map.mpr ⟨op, hcaller, rfl⟩
      refine ⟨_ ++ later, ?_, List.mem_append_left _ hcalled⟩
      rw [List.foldl_cons, hlater, hnow, List.append_assoc]
    · -- Another request fails first: the operation still runs, and still waits for this one.
      obtain ⟨now, hnow, -⟩ := rings_fail (c := c) fault first
      have hlater : ∃ op' ∈ (fail fault c first).running, op'.id = op.id ∧
          op'.ids = op.ids ∧ op'.isBatch = op.isBatch := by
        unfold fail
        split
        · refine ⟨_, List.mem_map_of_mem hop, ?_⟩
          split <;> exact ⟨rfl, rfl, rfl⟩
        · exact ⟨op, hop, rfl, rfl, rfl⟩
      have hstill : (fail fault c first).isPending id = true := by
        unfold fail
        split
        · obtain ⟨entry, hentry, hkey⟩ := List.any_eq_true.mp hpending
          refine List.any_eq_true.mpr ⟨entry, List.mem_filter.mpr ⟨hentry, ?_⟩, hkey⟩
          rw [beq_iff_eq.mp hkey]
          exact decide_eq_true (Ne.symm hfirst)
        · exact hpending
      obtain ⟨op', hop', hsame, hids, hkind⟩ := hlater
      obtain ⟨later, hturns, hcaller⟩ := ih hop' (hids ▸ hid) hstill
        ((List.mem_cons.mp hmem).resolve_left (Ne.symm hfirst))
      refine ⟨now ++ later, ?_, List.mem_append_right _ ?_⟩
      · rw [List.foldl_cons, hturns, hnow, List.append_assoc]
      · rw [hsame, hkind] at hcaller
        exact hcaller

/-- When the reader ends, whoever waits for a pending request gets a turn. -/
theorem exists_turns_teardown {id : Nat} {op : Operation} (hop : op ∈ c.running) (hid : id ∈ op.ids)
    (hpending : c.isPending id = true) (reason : String) :
    ∃ new, (c.teardown reason).turns = c.turns ++ new ∧ Turn.caller op.id op.isBatch ∈ new := by
  have hmem : id ∈ c.pending.map (·.1) := by
    obtain ⟨entry, hentry, hkey⟩ := List.any_eq_true.mp hpending
    exact List.mem_map.mpr ⟨entry, hentry, beq_iff_eq.mp hkey⟩
  obtain ⟨failed, hfailed, hcaller⟩ :=
    exists_turns_foldl_fail (c.lastFault reason) hop hid hpending hmem
  let between := (c.pending.map (·.1)).foldl (fail (c.lastFault reason)) c
  obtain ⟨closed, hclosed, -⟩ := rings_closeAll (c := between) (c.lastFault reason)
    between.registry
  refine ⟨failed ++ closed, ?_, List.mem_append_left _ hcaller⟩
  rw [← List.append_assoc, ← hfailed]
  exact hclosed

end Callers

end LedgerClient.Channel
