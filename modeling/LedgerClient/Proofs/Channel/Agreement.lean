import LedgerClient.Proofs.Channel.Requests

/-!
# Requests and their operations

Requests, their answers and their callers meet in one list of pending requests only. What keeps
them apart is an invariant: a pending request has not been answered and belongs to one running
operation, and whatever an operation has been told came from the first frame that answered the
request, or from no frame at all.

## Main definitions

* `Channel.firstAnswer`: the first frame that answered a request while it was pending
* `Channel.Stems`: where a settlement comes from
* `Channel.Accounted`: pending requests, operations and answers agree

## Main results

* `Channel.Requests.Launches.bound`, `Channel.Requests.Launches.isPending_of_lt`: the requests of an
  operation that is launched have ids of their own, and those before pend as they did
* `Channel.Accounted.unique`: no two operations share a request
* `Channel.Accounted.effect`, `Channel.Accounted.settle`: what a moment does keeps the agreement
* `Channel.Reached.accounted`: the agreement holds in every state
-/

namespace LedgerClient.Channel

open Rpc (Frame)

variable {config : Config} {past later : List Moment} {c : Channel} {r after : Requests}
  {numbers more : List Int} {id : Nat} {op : Operation} {isBatch : Bool} {host : Host}

/-- The first frame that answered a request while it was pending. -/
def firstAnswer (past : List Moment) (id : Nat) : Option Frame :=
  past.findSome? (·.answer? id)

/-- A settlement comes from the first answer to its request, or it is a fault that no service has
sent. -/
def Stems (host : Host) (past : List Moment) (numbers : List Int) (id : Nat) (isBatch : Bool)
    (settlement : Settlement) : Prop :=
  (∃ frame, firstAnswer past id = some frame ∧ Fits host numbers isBatch frame settlement) ∨
  ∃ fault, settlement = .fault fault ∧ ∀ error, fault ≠ .server error

/-- An operation and what it has been told. -/
structure Operation.Accounted (host : Host) (past : List Moment) (numbers : List Int) (r : Requests)
    (op : Operation) : Prop where
  first : op.id ∈ op.ids
  single : op.isBatch = false → op.ids = [op.id]
  bound : ∀ id ∈ op.ids, id < r.nextId
  settled : ∀ id settlement, (id, settlement) ∈ op.settled → id ∈ op.ids ∧
    r.isPending id = false ∧ Stems host past numbers id op.isBatch settlement
  complete : op.answered = true → op.isComplete = true

/-- Pending requests, operations and answers agree: a pending request belongs to a running
operation and has not been answered, and no two operations share a request. -/
structure Accounted (host : Host) (past : List Moment) (numbers : List Int) (r : Requests) :
    Prop where
  asked : ∀ id expected, (id, expected) ∈ r.pending → ∃ op ∈ r.running, id ∈ op.ids ∧
    op.isBatch = expected.isEntry
  fresh : ∀ id frame, firstAnswer past id = some frame → id < r.nextId ∧ r.isPending id = false
  operations : ∀ op ∈ r.running, op.Accounted host past numbers r
  apart : r.running.Pairwise fun op other => ∀ id ∈ op.ids, id ∉ other.ids
  sent : (r.sent.flatMap Outgoing.ids).Pairwise (· < ·)
  known : ∀ id ∈ r.sent.flatMap Outgoing.ids, id < r.nextId

/-! ## Answers -/

section Answers

theorem firstAnswer_concat (past : List Moment) (m : Moment) (id : Nat) :
    firstAnswer (past ++ [m]) id = (firstAnswer past id).or (m.answer? id) := by
  rw [firstAnswer, List.findSome?_append]
  congr 1
  rw [List.findSome?_cons]
  cases m.answer? id <;> rfl

theorem firstAnswer_of_none {m : Moment} (h : m.answer? id = none) :
    firstAnswer (past ++ [m]) id = firstAnswer past id := by
  rw [firstAnswer_concat, h, Option.or_none]

theorem Fits.mono {frame : Frame} {settlement : Settlement} (hmore : numbers <+: more)
    (h : Fits host numbers isBatch frame settlement) : Fits host more isBatch frame settlement := by
  cases settlement with
  | stream k =>
    obtain ⟨hkind, herror, number, hgranted, hnumber⟩ := h
    obtain ⟨rest, rfl⟩ := hmore
    refine ⟨hkind, herror, number, hgranted, ?_⟩
    rw [List.getElem?_append_left (List.getElem?_eq_some_iff.mp hnumber).1]
    exact hnumber
  | _ => exact h

theorem Stems.mono {settlement : Settlement} (hfirst : firstAnswer later id = firstAnswer past id)
    (hmore : numbers <+: more) (h : Stems host past numbers id isBatch settlement) :
    Stems host later more id isBatch settlement := by
  rcases h with ⟨frame, hanswer, hfits⟩ | hfault
  · exact .inl ⟨frame, hfirst.trans hanswer, hfits.mono hmore⟩
  · exact .inr hfault

theorem isPending_iff : r.isPending id = true ↔ ∃ expected, (id, expected) ∈ r.pending := by
  rw [Requests.isPending, List.any_eq_true]
  constructor
  · rintro ⟨⟨n, expected⟩, hmem, hkey⟩
    cases beq_iff_eq.mp hkey
    exact ⟨expected, hmem⟩
  · rintro ⟨expected, hmem⟩
    exact ⟨(id, expected), hmem, beq_self_eq_true id⟩

theorem isPending_settle {settlement : Settlement} {n : Nat} :
    (r.settle n settlement).isPending id = (r.isPending id && id != n) := by
  rw [Bool.eq_iff_iff, Bool.and_eq_true, bne_iff_ne, isPending_iff, isPending_iff]
  constructor
  · rintro ⟨expected, hmem⟩
    obtain ⟨hpending, hkey⟩ := List.mem_filter.mp hmem
    exact ⟨⟨expected, hpending⟩, of_decide_eq_true hkey⟩
  · rintro ⟨⟨expected, hpending⟩, hne⟩
    exact ⟨expected, List.mem_filter.mpr ⟨hpending, decide_eq_true hne⟩⟩

/-- Where no request becomes pending, none that is not pending does. -/
theorem isPending_of_subset (hsub : ∀ entry ∈ after.pending, entry ∈ r.pending)
    (h : r.isPending id = false) : after.isPending id = false := by
  rw [Bool.eq_false_iff] at h ⊢
  intro hpending
  obtain ⟨expected, hmem⟩ := isPending_iff.mp hpending
  exact h (isPending_iff.mpr ⟨expected, hsub _ hmem⟩)

end Answers

/-! ## What operations are told -/

section Told

theorem firstFault_append (xs ys : List (Nat × Settlement)) :
    Operation.firstFault (xs ++ ys) =
      (Operation.firstFault xs).or (Operation.firstFault ys) := by
  induction xs with
  | nil => rfl
  | cons x xs ih =>
    obtain ⟨id, settlement⟩ := x
    cases settlement with
    | fault fault => rfl
    | _ => exact ih

/-- An operation that is complete stays so. -/
theorem isComplete_settle (settlement : Settlement) (h : op.isComplete = true) :
    (op.settle id settlement).isComplete = true := by
  rw [Operation.isComplete, Bool.or_eq_true] at h ⊢
  rcases h with hfault | hall
  · left
    change (Operation.firstFault (op.settled ++ _)).isSome = true
    rw [firstFault_append, Option.isSome_or, hfault]
    rfl
  · right
    rw [List.all_eq_true] at hall ⊢
    intro n hn
    change (op.settled ++ _).any _ = true
    rw [List.any_append, hall n hn]
    rfl

/-- An operation of one request is complete when that is settled. -/
theorem isComplete_settle_single (settlement : Settlement) (h : op.ids = [id]) :
    (op.settle id settlement).isComplete = true := by
  rw [Operation.isComplete, Bool.or_eq_true]
  right
  change op.ids.all (fun n => (op.settled ++ [(id, settlement)]).any (·.1 == n)) = true
  rw [h]
  simp

end Told

/-! ## Operations that are launched -/

section Launches

variable {expected : Expected} {outgoing : Outgoing}

namespace Requests.Launches

/-- The requests of an operation have the next ids. -/
theorem bound {next : Nat} (h : Launches next op expected outgoing) (hid : id ∈ op.ids) :
    next ≤ id ∧ id < next + op.ids.length := by
  rw [h.ids] at hid
  obtain ⟨n, hn, rfl⟩ := List.mem_map.mp hid
  exact ⟨Nat.le_add_right _ _, Nat.add_lt_add_left (List.mem_range.mp hn) _⟩

theorem known {next : Nat} {n : Int} (h : Launches next op expected outgoing)
    (hn : n ∈ outgoing.ids) : (next : Int) ≤ n ∧ n < (next + op.ids.length : Nat) := by
  rw [h.sent] at hn
  obtain ⟨id, hid, rfl⟩ := List.mem_map.mp hn
  exact ⟨Int.ofNat_le.mpr (h.bound hid).1, Int.ofNat_lt.mpr (h.bound hid).2⟩

theorem first_mem {next : Nat} (h : Launches next op expected outgoing) : op.id ∈ op.ids := by
  have hpos := List.length_pos_iff.mpr h.nonempty
  rw [h.ids, h.first]
  exact List.mem_map.mpr ⟨0, List.mem_range.mpr hpos, Nat.add_zero _⟩

theorem ascending {next : Nat} (h : Launches next op expected outgoing) :
    outgoing.ids.Pairwise (· < ·) := by
  rw [h.sent, h.ids, List.map_map]
  refine List.pairwise_map.mpr (List.pairwise_lt_range.imp fun hlt => ?_)
  exact Int.ofNat_lt.mpr (Nat.add_lt_add_left hlt _)

end Requests.Launches

theorem isPending_launch (h : (r.launch op expected outgoing).isPending id = true) :
    r.isPending id = true ∨ id ∈ op.ids := by
  obtain ⟨other, hmem⟩ := isPending_iff.mp h
  rcases List.mem_append.mp hmem with hold | hmem
  · exact .inl (isPending_iff.mpr ⟨other, hold⟩)
  · obtain ⟨n, hn, heq⟩ := List.mem_map.mp hmem
    cases heq
    exact .inr hn

/-- Of the requests that were sent before, those pend that did. -/
theorem Requests.Launches.isPending_of_lt (h : Launches r.nextId op expected outgoing)
    (hold : id < r.nextId) (hpending : (r.launch op expected outgoing).isPending id = true) :
    r.isPending id = true :=
  (isPending_launch hpending).resolve_right fun hown =>
    Nat.not_lt.mpr (h.bound hown).1 hold

end Launches

/-! ## The invariant, one change at a time -/

section Steps

theorem Operation.Accounted.mono (h : op.Accounted host past numbers r) (hmore : numbers <+: more)
    (hnext : r.nextId ≤ after.nextId)
    (hkept : ∀ id ∈ op.ids, r.isPending id = false → after.isPending id = false ∧
      firstAnswer later id = firstAnswer past id) : op.Accounted host later more after := by
  refine ⟨h.first, h.single, fun id hid => Nat.lt_of_lt_of_le (h.bound id hid) hnext, ?_,
    h.complete⟩
  intro id settlement hmem
  obtain ⟨hid, hsettled, hstems⟩ := h.settled id settlement hmem
  obtain ⟨hpending, hfirst⟩ := hkept id hid hsettled
  exact ⟨hid, hpending, hstems.mono hfirst hmore⟩

/-- The only request of an operation is the first one. -/
theorem Operation.Accounted.eq_first (h : op.Accounted host past numbers r)
    (hsingle : op.isBatch = false) (hid : id ∈ op.ids) : id = op.id := by
  rw [h.single hsingle] at hid
  exact List.mem_singleton.mp hid

/-- Among operations that share no request, one is known by each of its own. -/
theorem Operation.eq_of_shared {ops : List Operation} {other : Operation}
    (hapart : ops.Pairwise fun op other => ∀ id ∈ op.ids, id ∉ other.ids) (hop : op ∈ ops)
    (hother : other ∈ ops) (hid : id ∈ op.ids) (hshared : id ∈ other.ids) : op = other := by
  induction ops with
  | nil => cases hop
  | cons first others ih =>
    obtain ⟨hfirst, hothers⟩ := List.pairwise_cons.mp hapart
    rcases List.mem_cons.mp hop with heq | hin <;> rcases List.mem_cons.mp hother with heq' | hin'
    · exact heq.trans heq'.symm
    · rw [heq] at hid
      exact absurd hshared (hfirst other hin' id hid)
    · rw [heq'] at hshared
      exact absurd hid (hfirst op hin id hshared)
    · exact ih hothers hin hin'

/-- No two operations share a request. -/
theorem Accounted.unique {other : Operation} (h : Accounted host past numbers r)
    (hop : op ∈ r.running) (hother : other ∈ r.running) (hid : id ∈ op.ids)
    (hshared : id ∈ other.ids) : op = other :=
  Operation.eq_of_shared h.apart hop hother hid hshared

/-- A running operation is known by its id. -/
theorem Accounted.eq_of_id {other : Operation} (h : Accounted host past numbers r)
    (hop : op ∈ r.running) (hother : other ∈ r.running) (hid : other.id = op.id) : other = op := by
  have hfirst := (h.operations other hother).first
  rw [hid] at hfirst
  exact h.unique hother hop hfirst (h.operations op hop).first

/-- An operation is told what has come of one of its requests. -/
theorem Operation.Accounted.settle {settlement : Settlement} (h : op.Accounted host past numbers r)
    (hid : id ∈ op.ids) (hgone : r.isPending id = false)
    (hstems : Stems host past numbers id op.isBatch settlement) :
    (op.settle id settlement).Accounted host past numbers r := by
  refine ⟨h.first, h.single, h.bound, ?_, ?_⟩
  · intro n other hsettled
    rcases List.mem_append.mp hsettled with hbefore | hnow
    · exact h.settled n other hbefore
    · cases List.mem_singleton.mp hnow
      exact ⟨hid, hgone, hstems⟩
  · intro hanswered
    change (op.answered || !op.isBatch) = true at hanswered
    rw [Bool.or_eq_true] at hanswered
    rcases hanswered with hbefore | hsingle
    · exact isComplete_settle settlement (h.complete hbefore)
    · -- An operation that is no batch goes on at its first settlement, which is its last.
      have hone := h.single (Bool.not_eq_eq_eq_not.mp hsingle)
      rw [hone, List.mem_singleton] at hid
      rw [← hid] at hone
      exact isComplete_settle_single settlement hone

/-- What has passed without an answer changes nothing. -/
theorem Accounted.grow (hfirst : ∀ id, firstAnswer later id = firstAnswer past id)
    (hmore : numbers <+: more) (h : Accounted host past numbers r) :
    Accounted host later more r := by
  refine ⟨h.asked, fun id frame hanswer => h.fresh id frame ((hfirst id).symm.trans hanswer), ?_,
    h.apart, h.sent, h.known⟩
  exact fun op hop => (h.operations op hop).mono hmore (Nat.le_refl _) fun id _ hpending =>
    ⟨hpending, hfirst id⟩

/-- A pending request is settled, by the first answer to it or by a fault. -/
theorem Accounted.settle {expected : Expected} {settlement : Settlement}
    (h : Accounted host past numbers r) (hpending : (id, expected) ∈ r.pending)
    (hfirst : ∀ other, other ≠ id → firstAnswer later other = firstAnswer past other)
    (hmore : numbers <+: more) (hstems : Stems host later more id expected.isEntry settlement) :
    Accounted host later more (r.settle id settlement) := by
  have hwaits : r.isPending id = true := isPending_iff.mpr ⟨expected, hpending⟩
  obtain ⟨asker, hasker, hasked, hkind⟩ := h.asked id expected hpending
  have hsub : ∀ entry ∈ (r.settle id settlement).pending, entry ∈ r.pending ∧ entry.1 ≠ id := by
    intro entry hentry
    obtain ⟨hmem, hkey⟩ := List.mem_filter.mp hentry
    exact ⟨hmem, of_decide_eq_true hkey⟩
  have hgone : (r.settle id settlement).isPending id = false := by
    rw [isPending_settle, bne_self_eq_false, Bool.and_false]
  have hkept (n : Nat) (hn : r.isPending n = false) :
      (r.settle id settlement).isPending n = false ∧
        firstAnswer later n = firstAnswer past n := by
    refine ⟨by rw [isPending_settle, hn, Bool.false_and], hfirst n ?_⟩
    rintro rfl
    exact nomatch hwaits.symm.trans hn
  have hids (op : Operation) : (if op.ids.contains id then op.settle id settlement else op).ids =
      op.ids := by
    split <;> rfl
  constructor
  · intro n other hmem
    obtain ⟨op, hop, hn, hother⟩ := h.asked n other (hsub _ hmem).1
    refine ⟨_, List.mem_map_of_mem hop, ?_, ?_⟩
    · rw [hids]
      exact hn
    · split
      · exact hother
      · exact hother
  · intro n frame hanswer
    by_cases hn : n = id
    · rw [hn]
      exact ⟨(h.operations asker hasker).bound id hasked, hgone⟩
    · obtain ⟨hlt, hsettled⟩ := h.fresh n frame ((hfirst n hn).symm.trans hanswer)
      exact ⟨hlt, (hkept n hsettled).1⟩
  · intro op hop
    obtain ⟨old, hold, rfl⟩ := List.mem_map.mp hop
    have haccounted : old.Accounted host later more (r.settle id settlement) :=
      (h.operations old hold).mono hmore (Nat.le_refl _) fun n _ => hkept n
    split
    · next hcontains =>
      have hmem : id ∈ old.ids := List.contains_iff_mem.mp hcontains
      have hsame : old.isBatch = expected.isEntry := by
        rw [← h.unique hasker hold hasked hmem]
        exact hkind
      exact haccounted.settle hmem hgone (hsame ▸ hstems)
    · exact haccounted
  · refine List.pairwise_map.mpr (h.apart.imp fun hapart n hn => ?_)
    rw [hids] at hn ⊢
    exact hapart n hn
  · exact h.sent
  · exact h.known

theorem Accounted.fail {fault : Fault} (h : Accounted host past numbers r)
    (hfault : ∀ error, fault ≠ .server error) (id : Nat) :
    Accounted host past numbers (r.fail fault id) := by
  rw [Requests.fail]
  split
  · next hpending =>
    obtain ⟨expected, hmem⟩ := isPending_iff.mp hpending
    exact h.settle hmem (fun _ _ => rfl) (List.prefix_rfl) (.inr ⟨fault, rfl, hfault⟩)
  · exact h

theorem Accounted.fails {fault : Fault} (hfault : ∀ error, fault ≠ .server error) (ids : List Nat)
    (h : Accounted host past numbers r) :
    Accounted host past numbers (ids.foldl (Requests.fail fault) r) := by
  induction ids generalizing r with
  | nil => exact h
  | cons id ids ih => exact ih (h.fail hfault id)

theorem Accounted.gather (h : Accounted host past numbers r) (op : Nat) :
    Accounted host past numbers (r.gather op) := by
  have hids (o : Operation) : (if o.id == op then o.gather else o).ids = o.ids := by
    split <;> rfl
  refine ⟨?_, h.fresh, ?_, ?_, h.sent, h.known⟩
  · intro id expected hmem
    obtain ⟨o, ho, hid, hkind⟩ := h.asked id expected hmem
    refine ⟨_, List.mem_map_of_mem ho, ?_, ?_⟩
    · rw [hids]
      exact hid
    · split
      · exact hkind
      · exact hkind
  · intro o ho
    obtain ⟨old, hold, rfl⟩ := List.mem_map.mp ho
    have haccounted := h.operations old hold
    split
    · refine ⟨haccounted.first, haccounted.single, haccounted.bound, haccounted.settled, ?_⟩
      intro hanswered
      change (old.answered || old.isComplete) = true at hanswered
      rw [Bool.or_eq_true] at hanswered
      exact hanswered.elim haccounted.complete id
    · exact haccounted.mono List.prefix_rfl (Nat.le_refl _) fun _ _ hsettled => ⟨hsettled, rfl⟩
  · refine List.pairwise_map.mpr (h.apart.imp fun hapart n hn => ?_)
    rw [hids] at hn ⊢
    exact hapart n hn

theorem Accounted.retire (h : Accounted host past numbers r) (hop : op ∈ r.running) :
    Accounted host past numbers (r.retire op) := by
  have hsub : ∀ entry ∈ (r.retire op).pending, entry ∈ r.pending ∧ entry.1 ∉ op.ids := by
    intro entry hentry
    obtain ⟨hmem, hkey⟩ := List.mem_filter.mp hentry
    refine ⟨hmem, fun hid => ?_⟩
    rw [List.contains_iff_mem.mpr hid] at hkey
    cases hkey
  have hgone (id : Nat) (hid : r.isPending id = false) : (r.retire op).isPending id = false :=
    isPending_of_subset (fun entry hentry => (hsub entry hentry).1) hid
  refine ⟨?_, ?_, ?_, h.apart.sublist List.filter_sublist, h.sent, h.known⟩
  · intro id expected hmem
    obtain ⟨hpending, hnot⟩ := hsub _ hmem
    obtain ⟨other, hother, hid, hkind⟩ := h.asked id expected hpending
    refine ⟨other, List.mem_filter.mpr ⟨hother, ?_⟩, hid, hkind⟩
    rw [bne_iff_ne]
    intro hsame
    rw [h.eq_of_id hop hother hsame] at hid
    exact hnot hid
  · intro id frame hanswer
    obtain ⟨hlt, hsettled⟩ := h.fresh id frame hanswer
    exact ⟨hlt, hgone id hsettled⟩
  · intro other hother
    exact (h.operations other (List.mem_filter.mp hother).1).mono List.prefix_rfl (Nat.le_refl _)
      fun id _ hsettled => ⟨hgone id hsettled, rfl⟩

section Launched

variable {expected : Expected} {outgoing : Outgoing}

/-- An operation that is launched has been told nothing. -/
theorem Operation.Accounted.launched
    (hlaunches : Requests.Launches r.nextId op expected outgoing) :
    op.Accounted host past numbers (r.launch op expected outgoing) := by
  refine ⟨hlaunches.first_mem, hlaunches.single, fun id hid => (hlaunches.bound hid).2, ?_, ?_⟩
  · rw [hlaunches.settled]
    exact fun id settlement hmem => absurd hmem List.not_mem_nil
  · rw [hlaunches.answered]
    exact nofun

theorem Accounted.launch (h : Accounted host past numbers r)
    (hlaunches : Requests.Launches r.nextId op expected outgoing) :
    Accounted host past numbers (r.launch op expected outgoing) := by
  have hsettled {id : Nat} (hold : id < r.nextId) (hnot : r.isPending id = false) :
      (r.launch op expected outgoing).isPending id = false :=
    Bool.eq_false_iff.mpr fun hpending =>
      Bool.false_ne_true (hnot.symm.trans (hlaunches.isPending_of_lt hold hpending))
  have hsent : (r.launch op expected outgoing).sent.flatMap Outgoing.ids =
      r.sent.flatMap Outgoing.ids ++ outgoing.ids := by
    change (r.sent ++ [outgoing]).flatMap Outgoing.ids = _
    rw [List.flatMap_append, List.flatMap_singleton]
  constructor
  · intro id other hmem
    rcases List.mem_append.mp hmem with hmem | hmem
    · obtain ⟨asker, hasker, hasked⟩ := h.asked id other hmem
      exact ⟨asker, List.mem_append_left _ hasker, hasked⟩
    · obtain ⟨n, hn, heq⟩ := List.mem_map.mp hmem
      cases heq
      exact ⟨op, List.mem_append_right _ (List.mem_singleton_self op), hn, hlaunches.kind⟩
  · intro id frame hanswer
    obtain ⟨hlt, hnot⟩ := h.fresh id frame hanswer
    exact ⟨Nat.lt_add_right _ hlt, hsettled hlt hnot⟩
  · intro other hother
    rcases List.mem_append.mp hother with hold | hop
    · have hbefore := h.operations other hold
      exact hbefore.mono List.prefix_rfl (Nat.le_add_right _ _) fun id hid hnot =>
        ⟨hsettled (hbefore.bound id hid) hnot, rfl⟩
    · cases List.mem_singleton.mp hop
      exact .launched hlaunches
  · refine List.pairwise_append.mpr ⟨h.apart, List.pairwise_singleton _ _, ?_⟩
    intro other hother new hop id hid hmem
    cases List.mem_singleton.mp hop
    exact Nat.not_lt.mpr (hlaunches.bound hmem).1 ((h.operations other hother).bound id hid)
  · rw [hsent]
    refine List.pairwise_append.mpr ⟨h.sent, hlaunches.ascending, fun old hold new hnew => ?_⟩
    exact Int.lt_of_lt_of_le (h.known old hold) (hlaunches.known hnew).1
  · rw [hsent]
    intro id hid
    rcases List.mem_append.mp hid with hold | hnew
    · exact Int.lt_of_lt_of_le (h.known id hold) (Int.ofNat_le.mpr (Nat.le_add_right _ _))
    · exact (hlaunches.known hnew).2

end Launched

theorem Accounted.begins (h : Accounted host past numbers r) (hbegins : r.Begins after) :
    Accounted host past numbers after := by
  cases hbegins with
  | unsent n =>
    refine ⟨h.asked, ?_, ?_, h.apart, h.sent, ?_⟩
    · intro id frame hanswer
      obtain ⟨hlt, hsettled⟩ := h.fresh id frame hanswer
      exact ⟨Nat.lt_add_right _ hlt, hsettled⟩
    · intro op hop
      exact (h.operations op hop).mono List.prefix_rfl (Nat.le_add_right _ _) fun _ _ hsettled =>
        ⟨hsettled, rfl⟩
    · intro id hid
      have hlt := h.known id hid
      change id < ((r.nextId + n : Nat) : Int)
      omega
  | launched hlaunches => exact h.launch hlaunches

theorem Accounted.effect {isOpen hasBegun : Prop} (h : Accounted host past numbers r)
    (heffect : r.Effect isOpen hasBegun after) : Accounted host past numbers after := by
  cases heffect with
  | same => exact h
  | begins _ hbegins => exact h.begins hbegins
  | fails _ hfault ids => exact .fails hfault ids h
  | gathers op => exact h.gather op
  | retires hop => exact h.retire hop

end Steps

/-! ## The invariant in every state -/

section Every

/-- No subscription changes what it was registered with. -/
theorem Reached.terms_prefix {act : Act} (h : Reached config past c) (hready : c.Ready act) :
    c.streams.map Stream.terms <+: (c.perform act).streams.map Stream.terms := by
  refine List.prefix_iff_getElem?.mpr fun k hk => ?_
  have hlen : k < c.streams.length := by rwa [List.length_map] at hk
  have hs : c.streams[k]? = some c.streams[k] := List.getElem?_eq_getElem hlen
  obtain ⟨change, hmakes⟩ := h.exists_change hready hs
  have hafter : (c.perform act).streams[k]? = _ := hmakes.after
  rw [List.getElem?_map, hafter, Option.map_some, Stream.terms_apply, List.getElem_map]

theorem Reached.numbers_prefix {act : Act} (h : Reached config past c) (hready : c.Ready act) :
    c.numbers <+: (c.perform act).numbers := by
  have hnumbers (d : Channel) : d.numbers = (d.streams.map Stream.terms).map Stream.Terms.id := by
    rw [List.map_map]
    rfl
  rw [hnumbers, hnumbers]
  exact (h.terms_prefix hready).map _

/-- **Pending requests, operations and answers agree in every state.** -/
theorem Reached.accounted (h : Reached config past c) :
    Accounted config.host past c.numbers c.requests := by
  induction h with
  | start =>
    refine ⟨nofun, nofun, nofun, .nil, .nil, nofun⟩
  | @perform past c act hready h ih =>
    have hmore := Reached.numbers_prefix h hready
    rcases requests_perform hready with
      ⟨id, expected, frame, settlement, hanswer, hothers, hpending, hrequests, hfits, -⟩ |
      ⟨hnone, heffect⟩
    · have hwaits : c.requests.isPending id = true := isPending_iff.mpr ⟨expected, hpending⟩
      have hunanswered : firstAnswer past id = none := by
        cases hbefore : firstAnswer past id with
        | none => rfl
        | some earlier => exact nomatch hwaits.symm.trans (ih.fresh id earlier hbefore).2
      have hfirst : firstAnswer (past ++ [⟨c, act⟩]) id = some frame := by
        rw [firstAnswer_concat, hunanswered, hanswer]
        rfl
      rw [Leads.config_eq h] at hfits
      rw [hrequests]
      exact ih.settle hpending (fun other hother => firstAnswer_of_none (hothers other hother))
        hmore (.inl ⟨frame, hfirst, hfits⟩)
    · exact (ih.grow (fun id => firstAnswer_of_none (hnone id)) hmore).effect heffect

end Every

end LedgerClient.Channel
