import LedgerClient.Proofs.Channel.Agreement

/-!
# What operations wait for

An operation waits for those of its requests that are pending; of each of the others something has
come. While one is pending, none of them has failed: a call or a subscription has one request only,
and the requests of a batch fail together. That is why the end of the reader is what every operation
is told that it finds waiting.

## Main definitions

* `Channel.Awaits`: what operations wait for
* `Channel.Operation.Fails`: what an operation is told when requests fail

## Main results

* `Channel.exists_fails`, `Channel.foldl_fail_eq`: the requests of operations fail and nothing else
  happens to them
* `Channel.Reached.awaits`: operations wait for what is pending, in every state
-/

namespace LedgerClient.Channel

variable {config : Config} {past : List Moment} {c : Channel} {r after : Requests}
  {numbers : List Int} {id : Nat} {failing : List Nat} {fault : Fault} {op : Operation}
  {host : Host}

/-- Operations wait for what is pending: of each of their other requests something has come, and
no request of an operation has failed while another one is pending. -/
structure Awaits (r : Requests) : Prop where
  batches : r.batches = (r.running.filter Operation.isBatch).map Operation.ids
  covered : ∀ op ∈ r.running, ∀ id ∈ op.ids, r.isPending id = true ∨
    ∃ settlement, (id, settlement) ∈ op.settled
  unfailed : ∀ op ∈ r.running, ∀ id ∈ op.ids, r.isPending id = true →
    Operation.firstFault op.settled = none

/-! ## Failures -/

section Failures

/-- What an operation is told when requests fail that were pending. -/
structure Operation.Fails (fault : Fault) (failing : List Nat) (r : Requests)
    (op told : Operation) : Prop where
  sameId : told.id = op.id
  sameIds : told.ids = op.ids
  sameKind : told.isBatch = op.isBatch
  settled : ∃ more, told.settled = op.settled ++ more ∧ (∀ entry ∈ more, entry.2 = .fault fault) ∧
    ∀ id ∈ failing, id ∈ op.ids → r.isPending id = true → (id, .fault fault) ∈ more
  untold : (∀ id ∈ failing, id ∈ op.ids → r.isPending id = false) → told = op

theorem isPending_fail {n : Nat} :
    (r.fail fault n).isPending id = (r.isPending id && id != n) := by
  unfold Requests.fail
  split
  · exact isPending_settle
  · next hnot =>
    rw [Bool.eq_iff_iff, Bool.and_eq_true, bne_iff_ne]
    refine ⟨fun hpending => ⟨hpending, ?_⟩, And.left⟩
    rintro rfl
    exact hnot hpending

/-- Requests that fail are pending no more. -/
theorem isPending_foldl_fail : (failing.foldl (Requests.fail fault) r).isPending id =
    (r.isPending id && !failing.contains id) := by
  induction failing generalizing r with
  | nil => simp
  | cons n failing ih =>
    rw [List.foldl_cons, ih, isPending_fail, List.contains_cons, Bool.not_or, Bool.and_assoc]
    rfl

/-- Where all pending requests fail, none stays pending. -/
theorem pending_foldl_fail (hall : ∀ entry ∈ r.pending, entry.1 ∈ failing) :
    (failing.foldl (Requests.fail fault) r).pending = [] := by
  rw [List.eq_nil_iff_forall_not_mem]
  rintro ⟨id, expected⟩ hmem
  have hwaits := isPending_iff.mpr ⟨expected, hmem⟩
  rw [isPending_foldl_fail, Bool.and_eq_true] at hwaits
  obtain ⟨hwaits, hnot⟩ := hwaits
  obtain ⟨other, hbefore⟩ := isPending_iff.mp hwaits
  rw [List.contains_iff_mem.mpr (hall _ hbefore)] at hnot
  cases hnot

/-- One request fails before others. -/
theorem Operation.Fails.cons {n : Nat} {told : Operation} (hpending : r.isPending n = true)
    (h : (if op.ids.contains n then op.settle n (.fault fault) else op).Fails fault failing
      (r.settle n (.fault fault)) told) : op.Fails fault (n :: failing) r told := by
  by_cases hn : n ∈ op.ids
  · rw [if_pos (List.contains_iff_mem.mpr hn)] at h
    obtain ⟨more, hmore, hfaults, htold⟩ := h.settled
    refine ⟨h.sameId, h.sameIds, h.sameKind, ⟨(n, .fault fault) :: more, ?_, ?_, ?_⟩, ?_⟩
    · rw [hmore]
      exact List.append_assoc ..
    · exact List.forall_mem_cons.mpr ⟨rfl, hfaults⟩
    · intro id hid hown hwaits
      by_cases hfirst : id = n
      · rw [hfirst]
        exact List.mem_cons_self
      · have hlater := (List.mem_cons.mp hid).resolve_left hfirst
        refine List.mem_cons_of_mem _ (htold id hlater hown ?_)
        rw [isPending_settle, hwaits, bne_iff_ne.mpr hfirst]
        rfl
    · exact fun hnone => nomatch (hnone n List.mem_cons_self hn).symm.trans hpending
  · rw [if_neg fun hcontains => hn (List.contains_iff_mem.mp hcontains)] at h
    have hne {id : Nat} (hown : id ∈ op.ids) : id ≠ n := fun heq => hn (heq ▸ hown)
    obtain ⟨more, hmore, hfaults, htold⟩ := h.settled
    refine ⟨h.sameId, h.sameIds, h.sameKind, ⟨more, hmore, hfaults, ?_⟩, fun hnone => ?_⟩
    · intro id hid hown hwaits
      refine htold id ((List.mem_cons.mp hid).resolve_left (hne hown)) hown ?_
      rw [isPending_settle, hwaits, bne_iff_ne.mpr (hne hown)]
      rfl
    · refine h.untold fun id hid hown => ?_
      rw [isPending_settle, hnone id (List.mem_cons_of_mem _ hid) hown]
      rfl

/-- When requests fail, each operation is told so of its own. -/
theorem exists_fails (fault : Fault) (failing : List Nat) (r : Requests) :
    ∃ tell : Operation → Operation,
      (failing.foldl (Requests.fail fault) r).running = r.running.map tell ∧
        ∀ op : Operation, op.Fails fault failing r (tell op) := by
  induction failing generalizing r with
  | nil =>
    refine ⟨fun op => op, (List.map_id r.running).symm, fun op => ⟨rfl, rfl, rfl, ?_, fun _ => rfl⟩⟩
    exact ⟨[], (List.append_nil _).symm, nofun, nofun⟩
  | cons n failing ih =>
    rw [List.foldl_cons, Requests.fail]
    split
    · next hpending =>
      -- The other requests fail after this one, so their operations have been told of it.
      obtain ⟨tell, hrunning, htell⟩ := ih (r.settle n (.fault fault))
      refine ⟨_, hrunning.trans (List.map_map ..), fun op => .cons hpending (htell _)⟩
    · next hpending =>
      obtain ⟨tell, hrunning, htell⟩ := ih r
      have hne {id : Nat} (hwaits : r.isPending id = true) : id ≠ n := by
        rintro rfl
        exact hpending hwaits
      refine ⟨tell, hrunning, fun op => ?_⟩
      obtain ⟨more, hmore, hfaults, htold⟩ := (htell op).settled
      refine ⟨(htell op).sameId, (htell op).sameIds, (htell op).sameKind,
        ⟨more, hmore, hfaults, ?_⟩, ?_⟩
      · exact fun id hid hown hwaits =>
          htold id ((List.mem_cons.mp hid).resolve_left (hne hwaits)) hown hwaits
      · exact fun hnone => (htell op).untold fun id hid => hnone id (List.mem_cons_of_mem _ hid)

/-- Where requests fail, nothing changes but what is pending and what operations are told. -/
theorem foldl_fail_eq : failing.foldl (Requests.fail fault) r =
    { r with
      pending := (failing.foldl (Requests.fail fault) r).pending
      running := (failing.foldl (Requests.fail fault) r).running } := by
  induction failing generalizing r with
  | nil => rfl
  | cons n failing ih =>
    rw [List.foldl_cons, ih, Requests.fail]
    split <;> rfl

theorem nextId_foldl_fail (fault : Fault) (failing : List Nat) (r : Requests) :
    (failing.foldl (Requests.fail fault) r).nextId = r.nextId := by
  rw [foldl_fail_eq]

theorem sent_foldl_fail (fault : Fault) (failing : List Nat) (r : Requests) :
    (failing.foldl (Requests.fail fault) r).sent = r.sent := by
  rw [foldl_fail_eq]

/-- An operation one of whose requests fails, and that had no fault, has this one. -/
theorem Operation.Fails.firstFault {told : Operation} (h : op.Fails fault failing r told)
    (hid : id ∈ failing) (hown : id ∈ op.ids) (hpending : r.isPending id = true)
    (hnone : Operation.firstFault op.settled = none) :
    Operation.firstFault told.settled = some fault := by
  obtain ⟨more, hmore, hfaults, htold⟩ := h.settled
  have hmem := htold id hid hown hpending
  rw [hmore, firstFault_append, hnone]
  cases more with
  | nil => cases hmem
  | cons first others =>
    obtain ⟨n, settlement⟩ := first
    cases (List.forall_mem_cons.mp hfaults).1
    rfl

end Failures

/-! ## The invariant, one change at a time -/

section Steps

/-- Where operations keep their ids, the batches that run are the same. -/
theorem map_ids_filter_map {tell : Operation → Operation} (hids : ∀ op, (tell op).ids = op.ids)
    (hkind : ∀ op, (tell op).isBatch = op.isBatch) (running : List Operation) :
    ((running.map tell).filter Operation.isBatch).map Operation.ids =
      (running.filter Operation.isBatch).map Operation.ids := by
  have hfilter : Operation.isBatch ∘ tell = Operation.isBatch := funext hkind
  have hmap : Operation.ids ∘ tell = Operation.ids := funext hids
  rw [List.filter_map, List.map_map, hfilter, hmap]

/-- A pending request is answered; only a request that is no part of a batch fails alone. -/
theorem Awaits.settle {expected : Expected} {settlement : Settlement} (h : Awaits r)
    (haccounted : Accounted host past numbers r) (hpending : (id, expected) ∈ r.pending)
    (halone : ∀ fault, settlement = .fault fault → expected.isEntry = false) :
    Awaits (r.settle id settlement) := by
  have hids (op : Operation) : (if op.ids.contains id then op.settle id settlement else op).ids =
      op.ids := by
    split <;> rfl
  constructor
  · refine h.batches.trans (map_ids_filter_map hids (fun op => ?_) r.running).symm
    split <;> rfl
  · intro told htold n hn
    obtain ⟨op, hop, rfl⟩ := List.mem_map.mp htold
    rw [hids] at hn
    split
    · next hcontains =>
      rcases h.covered op hop n hn with hwaits | ⟨other, hmem⟩
      · by_cases hsame : n = id
        · subst hsame
          exact .inr ⟨settlement, List.mem_append_right _ (List.mem_singleton_self _)⟩
        · exact .inl (by rw [isPending_settle, hwaits, bne_iff_ne.mpr hsame]; rfl)
      · exact .inr ⟨other, List.mem_append_left _ hmem⟩
    · next hcontains =>
      refine (h.covered op hop n hn).imp_left fun hwaits => ?_
      have hne : n ≠ id := fun heq => hcontains (List.contains_iff_mem.mpr (heq ▸ hn))
      rw [isPending_settle, hwaits, bne_iff_ne.mpr hne]
      rfl
  · intro told htold n hn hwaits
    rw [isPending_settle, Bool.and_eq_true, bne_iff_ne] at hwaits
    obtain ⟨hwaits, hne⟩ := hwaits
    obtain ⟨op, hop, rfl⟩ := List.mem_map.mp htold
    rw [hids] at hn
    split
    · next hcontains =>
      have hown : id ∈ op.ids := List.contains_iff_mem.mp hcontains
      change Operation.firstFault (op.settled ++ [(id, settlement)]) = none
      rw [firstFault_append, h.unfailed op hop n hn hwaits]
      cases settlement with
      | fault fault =>
        obtain ⟨asker, hasker, hasked, hkind⟩ := haccounted.asked id expected hpending
        cases haccounted.unique hasker hop hasked hown
        have hsingle : op.isBatch = false := hkind.trans (halone fault rfl)
        have hn := (haccounted.operations op hop).eq_first hsingle hn
        have hid := (haccounted.operations op hop).eq_first hsingle hown
        exact absurd (hn.trans hid.symm) hne
      | text | entry | stream => rfl
    · exact h.unfailed op hop n hn hwaits

/-- All pending requests fail, or those of a batch. -/
theorem Awaits.fails (h : Awaits r) (haccounted : Accounted host past numbers r)
    (hwhole : failing = r.pending.map Prod.fst ∨ failing ∈ r.batches) :
    Awaits (failing.foldl (Requests.fail fault) r) := by
  obtain ⟨tell, hrunning, htell⟩ := exists_fails fault failing r
  refine ⟨?_, ?_, ?_⟩ <;> rw [hrunning]
  · refine ((congrArg Requests.batches foldl_fail_eq).trans h.batches).trans ?_
    exact (map_ids_filter_map (fun op => (htell op).sameIds) (fun op => (htell op).sameKind)
      r.running).symm
  · intro told htold n hn
    obtain ⟨op, hop, rfl⟩ := List.mem_map.mp htold
    rw [(htell op).sameIds] at hn
    obtain ⟨more, hmore, -, hfailed⟩ := (htell op).settled
    rw [isPending_foldl_fail, hmore]
    rcases h.covered op hop n hn with hwaits | ⟨settlement, hmem⟩
    · by_cases hmem : n ∈ failing
      · exact .inr ⟨_, List.mem_append_right _ (hfailed n hmem hn hwaits)⟩
      · exact .inl (by simp [hwaits, hmem])
    · exact .inr ⟨settlement, List.mem_append_left _ hmem⟩
  · intro told htold n hn hwaits
    obtain ⟨op, hop, rfl⟩ := List.mem_map.mp htold
    rw [(htell op).sameIds] at hn
    rw [isPending_foldl_fail, Bool.and_eq_true, Bool.not_eq_true', ← Bool.not_eq_true,
      List.contains_iff_mem] at hwaits
    obtain ⟨hwaits, hnot⟩ := hwaits
    -- A request of the operation is pending still, so none of its requests was among the failing.
    rw [(htell op).untold]
    · exact h.unfailed op hop n hn hwaits
    · intro id hid hown
      refine Bool.eq_false_iff.mpr fun hpending => hnot ?_
      rcases hwhole with rfl | hbatch
      · obtain ⟨expected, hmem⟩ := isPending_iff.mp hwaits
        exact List.mem_map_of_mem hmem
      · -- The batch that fails is this operation, since they share a request.
        rw [h.batches] at hbatch
        obtain ⟨batch, hmem, rfl⟩ := List.mem_map.mp hbatch
        rw [haccounted.unique (List.mem_filter.mp hmem).1 hop hid hown]
        exact hn

theorem Awaits.gather (h : Awaits r) (n : Nat) : Awaits (r.gather n) := by
  refine ⟨h.batches.trans (map_ids_filter_map ?_ ?_ r.running).symm, ?_, ?_⟩
  · intro op
    split <;> rfl
  · intro op
    split <;> rfl
  · intro told htold
    obtain ⟨op, hop, rfl⟩ := List.mem_map.mp htold
    split <;> exact h.covered op hop
  · intro told htold
    obtain ⟨op, hop, rfl⟩ := List.mem_map.mp htold
    split <;> exact h.unfailed op hop

/-- No two batches that run have the same ids. -/
theorem Accounted.nodup_batches (h : Accounted host past numbers r) :
    ((r.running.filter Operation.isBatch).map Operation.ids).Nodup := by
  refine List.pairwise_map.mpr ((h.apart.filter _).imp_of_mem ?_)
  intro first second hfirst _ hapart heq
  have hmem := (h.operations first (List.mem_filter.mp hfirst).1).first
  exact hapart _ hmem (heq ▸ hmem)

/-- Where an operation ends, the batches that run are the others. -/
theorem Awaits.batches_retire (h : Awaits r) (haccounted : Accounted host past numbers r)
    (hop : op ∈ r.running) : (r.retire op).batches =
      ((r.retire op).running.filter Operation.isBatch).map Operation.ids := by
  have hrest : (r.retire op).running.filter Operation.isBatch =
      (r.running.filter Operation.isBatch).filter fun other => other.id != op.id := by
    change (r.running.filter _).filter _ = _
    rw [List.filter_filter, List.filter_filter]
    exact List.filter_congr fun other _ => Bool.and_comm ..
  rw [hrest]
  change (if op.isBatch then r.batches.erase op.ids else r.batches) = _
  rw [h.batches]
  split
  · rw [haccounted.nodup_batches.erase_eq_filter, List.filter_map]
    congr 1
    refine List.filter_congr fun other hmem => ?_
    have hmem := (List.mem_filter.mp hmem).1
    rw [Bool.eq_iff_iff, Function.comp_apply, bne_iff_ne, bne_iff_ne]
    refine not_congr ⟨fun hids => ?_, fun hid => by rw [haccounted.eq_of_id hop hmem hid]⟩
    have hfirst := (haccounted.operations other hmem).first
    rw [haccounted.unique hmem hop hfirst (hids ▸ hfirst)]
  · next hsingle =>
    have hall : (r.running.filter Operation.isBatch).filter (fun other => other.id != op.id) =
        r.running.filter Operation.isBatch := by
      refine List.filter_eq_self.mpr fun other hmem => bne_iff_ne.mpr fun hid => hsingle ?_
      obtain ⟨hmem, hbatch⟩ := List.mem_filter.mp hmem
      rwa [haccounted.eq_of_id hop hmem hid] at hbatch
    rw [hall]

theorem Awaits.retire (h : Awaits r) (haccounted : Accounted host past numbers r)
    (hop : op ∈ r.running) : Awaits (r.retire op) := by
  refine ⟨h.batches_retire haccounted hop, ?_, ?_⟩
  · intro other hmem id hid
    obtain ⟨hmem, hne⟩ := List.mem_filter.mp hmem
    refine (h.covered other hmem id hid).imp_left fun hwaits => ?_
    obtain ⟨expected, hpending⟩ := isPending_iff.mp hwaits
    refine isPending_iff.mpr ⟨expected, List.mem_filter.mpr ⟨hpending, ?_⟩⟩
    rw [Bool.not_eq_true', ← Bool.not_eq_true, List.contains_iff_mem]
    intro hshared
    rw [haccounted.unique hmem hop hid hshared] at hne
    exact bne_iff_ne.mp hne rfl
  · intro other hmem id hid hwaits
    obtain ⟨hmem, -⟩ := List.mem_filter.mp hmem
    refine h.unfailed other hmem id hid ?_
    obtain ⟨expected, hpending⟩ := isPending_iff.mp hwaits
    exact isPending_iff.mpr ⟨expected, (List.mem_filter.mp hpending).1⟩

theorem Awaits.launch {expected : Expected} {outgoing : Outgoing} (h : Awaits r)
    (haccounted : Accounted host past numbers r)
    (hlaunches : Requests.Launches r.nextId op expected outgoing) :
    Awaits (r.launch op expected outgoing) := by
  constructor
  · change (if op.isBatch then r.batches ++ [op.ids] else r.batches) =
      ((r.running ++ [op]).filter Operation.isBatch).map Operation.ids
    rw [List.filter_append, List.map_append, ← h.batches]
    split
    · next hbatch => rw [List.filter_cons_of_pos hbatch]; rfl
    · next hsingle => rw [List.filter_cons_of_neg hsingle]; exact (List.append_nil _).symm
  · intro other hmem id hid
    rcases List.mem_append.mp hmem with hold | hnew
    · refine (h.covered other hold id hid).imp_left fun hwaits => ?_
      obtain ⟨expected, hmem⟩ := isPending_iff.mp hwaits
      exact isPending_iff.mpr ⟨expected, List.mem_append_left _ hmem⟩
    · cases List.mem_singleton.mp hnew
      exact .inl (isPending_iff.mpr ⟨expected,
        List.mem_append_right _ (List.mem_map_of_mem hid)⟩)
  · intro other hmem id hid hwaits
    rcases List.mem_append.mp hmem with hold | hnew
    · have hbound := (haccounted.operations other hold).bound id hid
      exact h.unfailed other hold id hid (hlaunches.isPending_of_lt hbound hwaits)
    · cases List.mem_singleton.mp hnew
      rw [hlaunches.settled]
      rfl

theorem Awaits.effect {isOpen hasBegun : Prop} (h : Awaits r)
    (haccounted : Accounted host past numbers r)
    (heffect : r.Effect isOpen hasBegun after) : Awaits after := by
  cases heffect with
  | same => exact h
  | begins _ hbegins =>
    cases hbegins with
    | unsent n => exact ⟨h.batches, h.covered, h.unfailed⟩
    | launched hlaunches => exact h.launch haccounted hlaunches
  | fails _ _ failing hwhole => exact h.fails haccounted hwhole
  | gathers n => exact h.gather n
  | retires hop => exact h.retire haccounted hop

end Steps

/-- **Operations wait for what is pending, in every state.** -/
theorem Reached.awaits (h : Reached config past c) : Awaits c.requests := by
  induction h with
  | start => exact ⟨rfl, nofun, nofun⟩
  | perform act hready hreached ih =>
    have haccounted := Reached.accounted hreached
    rcases requests_perform hready with
      ⟨id, expected, frame, settlement, -, -, hpending, hrequests, hfits, -⟩ | ⟨-, heffect⟩
    · rw [hrequests]
      refine ih.settle haccounted hpending fun fault hfault => ?_
      subst hfault
      exact hfits.1
    · exact ih.effect haccounted heffect

end LedgerClient.Channel
