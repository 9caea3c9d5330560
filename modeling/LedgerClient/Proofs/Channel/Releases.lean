import Mathlib.Data.List.Infix
import LedgerClient.Proofs.Channel.Bookkeeping
import LedgerClient.Proofs.Channel.Correlation
import LedgerClient.Proofs.Channel.Departures

/-!
# Subscriptions are ended once

As long as the service grants no number twice, every subscription that has left the registry is
either ended at the service or due to be, and neither of them twice. What is due is made up for in
the order in which it became due, so in a channel that stays open nothing is left out.

Whatever is registered has someone who holds it: the operation that has asked for it still runs, or
its caller was given the stream. A caller who gives up holds nothing.

## Main definitions

* `Channel.farewells`: the subscriptions that were ended at the service
* `Channel.endings`: what each subscription is ended with
* `Channel.Balanced`: what has left is ended or due, once
* `Channel.Held`: someone holds a stream

## Main results

* `Channel.Reached.balanced`: what has left is ended or due, in every state
* `Channel.Leads.released_in_turn`: what is due is made up for in order
* `Channel.Reached.held_of_registered`: whatever is registered is held
* `Channel.registrations_released`: no subscription is ended twice, and none is left out, in every
  run
-/

namespace LedgerClient.Channel

variable {config : Config} {past later : List Moment} {c d : Channel} {act : Act} {k : Nat}
  {number : Int} {s : Stream} {reason : String}

/-- The subscriptions that were ended at the service, in order. -/
def farewells (past : List Moment) : List (String × Int) := past.flatMap Moment.farewells

/-- What each subscription is ended with. -/
def endings (c : Channel) : List (String × Int) := c.streams.map Stream.farewell

/-- What has left the registry of an open channel is ended or due, once; and nothing else is. -/
structure Balanced (past : List Moment) (c : Channel) : Prop where
  gone : ∀ entry ∈ farewells past ++ c.orphans,
    entry ∈ c.endings ∧ c.registered? entry.2 = none
  once : ((farewells past ++ c.orphans).map Prod.snd).Nodup
  every : c.closed = none → ∀ entry ∈ c.endings, c.registered? entry.2 = none →
    entry ∈ farewells past ++ c.orphans

/-! ## Numbers -/

section Numbers

theorem map_snd_endings (c : Channel) : c.endings.map Prod.snd = c.numbers := by
  rw [endings, numbers, List.map_map]
  rfl

theorem Reached.endings_prefix (h : Reached config past c) (hready : c.Ready act) :
    c.endings <+: (c.perform act).endings := by
  have hendings (d : Channel) :
      d.endings = (d.streams.map Stream.terms).map fun terms => (terms.ending, terms.id) := by
    rw [List.map_map]
    rfl
  rw [hendings, hendings]
  exact (h.terms_prefix hready).map _

/-- What a subscription is ended with was known before, or the subscription has come just now. -/
theorem Reached.mem_endings (h : Reached config past c) (hready : c.Ready act)
    {entry : String × Int} (hmem : entry ∈ (c.perform act).endings)
    (hnone : (c.perform act).registered? entry.2 = none) : entry ∈ c.endings := by
  have hsame (hlength : (c.perform act).streams.length = c.streams.length) :
      entry ∈ c.endings := by
    have hkept := (h.endings_prefix hready).eq_of_length <| by
      rw [endings, endings, List.length_map, List.length_map, hlength]
    rw [hkept]
    exact hmem
  cases reregisters_perform hready with
  | same _ hlength => exact hsame hlength
  | ended _ hlength => exact hsame hlength
  | freed _ _ _ hlength => exact hsame hlength
  | @granted s hregistry hstreams =>
    rw [endings, hstreams, List.map_append, List.map_singleton] at hmem
    rcases List.mem_append.mp hmem with hold | hnew
    · exact hold
    · rw [List.mem_singleton.mp hnew, registered?_congr hregistry, registered?_register] at hnone
      exact nomatch (if_pos rfl).symm.trans hnone

/-- A number that has left the registry does not come back, if none is granted twice. -/
theorem unregistered_perform (hready : c.Ready act) (hdistinct : (c.perform act).numbers.Nodup)
    (hnumber : number ∈ c.numbers) (hnone : c.registered? number = none) :
    (c.perform act).registered? number = none := by
  rw [Option.eq_none_iff_forall_ne_some]
  intro k hsome
  rcases (reregisters_perform hready).before hsome with hbefore | ⟨s, hid, -, hstreams⟩
  · cases hnone.symm.trans hbefore
  · rw [numbers, hstreams, List.map_append, List.map_singleton] at hdistinct
    exact (List.nodup_append.mp hdistinct).2.2 _ hnumber _ (List.mem_singleton_self _) hid.symm

/-- A moment opens no channel that was closed. -/
theorem open_before (hready : c.Ready act) (hopen : (c.perform act).closed = none) :
    c.closed = none := by
  cases hclosed : c.closed with
  | none => rfl
  | some reason => exact nomatch hopen.symm.trans (closed_perform hready hclosed)

end Numbers

/-! ## What has left -/

section Balance

theorem farewells_append (past later : List Moment) :
    farewells (past ++ later) = farewells past ++ farewells later :=
  List.flatMap_append

theorem farewells_concat (past : List Moment) (m : Moment) :
    farewells (past ++ [m]) = farewells past ++ m.farewells := by
  rw [farewells_append, farewells, farewells, List.flatMap_singleton]

variable (h : Balanced past c) (hreached : Reached config past c) (hready : c.Ready act)
  (hdistinct : (c.perform act).numbers.Nodup)
include h hreached hready hdistinct

theorem Balanced.gone_perform {entry : String × Int} (hmem : entry ∈ farewells past ++ c.orphans) :
    entry ∈ (c.perform act).endings ∧ (c.perform act).registered? entry.2 = none := by
  obtain ⟨hending, hnone⟩ := h.gone entry hmem
  have hnumber : entry.2 ∈ c.numbers := map_snd_endings c ▸ List.mem_map_of_mem hending
  exact ⟨(hreached.endings_prefix hready).subset hending,
    unregistered_perform hready hdistinct hnumber hnone⟩

/-- Nothing leaves an open channel. -/
theorem Balanced.kept
    (hsub : ((Moment.mk c act).farewells ++ (c.perform act).orphans).Sublist c.orphans)
    (hopen : (c.perform act).closed = none →
      (Moment.mk c act).farewells ++ (c.perform act).orphans = c.orphans ∧
      ∀ number, (c.perform act).registered? number = none → c.registered? number = none) :
    Balanced (past ++ [⟨c, act⟩]) (c.perform act) := by
  have hall : (farewells (past ++ [⟨c, act⟩]) ++ (c.perform act).orphans).Sublist
      (farewells past ++ c.orphans) := by
    rw [farewells_concat, List.append_assoc]
    exact hsub.append_left _
  refine ⟨fun entry hmem => h.gone_perform hreached hready hdistinct (hall.subset hmem),
    h.once.sublist (hall.map _), fun hafter entry hmem hnone => ?_⟩
  obtain ⟨hsame, hstill⟩ := hopen hafter
  rw [farewells_concat, List.append_assoc, hsame]
  exact h.every (open_before hready hafter) entry (hreached.mem_endings hready hmem hnone)
    (hstill _ hnone)

/-- A subscription leaves that is ended or due. -/
theorem Balanced.left (hs : c.streams[k]? = some s) (hsome : c.registered? s.id = some k)
    (hregistry : (c.perform act).registry = (c.deregister s.id).registry)
    (hperm : ((Moment.mk c act).farewells ++ (c.perform act).orphans).Perm
      (s.farewell :: c.orphans)) :
    Balanced (past ++ [⟨c, act⟩]) (c.perform act) := by
  have hall : (farewells (past ++ [⟨c, act⟩]) ++ (c.perform act).orphans).Perm
      (s.farewell :: (farewells past ++ c.orphans)) := by
    rw [farewells_concat, List.append_assoc]
    exact (hperm.append_left _).trans List.perm_middle
  have hafter (number : Int) : (c.perform act).registered? number =
      if number = s.id then none else c.registered? number := by
    rw [registered?_congr hregistry, registered?_deregister]
  have hending : s.farewell ∈ c.endings := List.mem_map_of_mem (List.mem_of_getElem? hs)
  refine ⟨fun entry hmem => ?_, ?_, fun hopen entry hmem hnone => ?_⟩
  · rcases List.mem_cons.mp (hall.subset hmem) with rfl | hold
    · exact ⟨(hreached.endings_prefix hready).subset hending, (hafter _).trans (if_pos rfl)⟩
    · exact h.gone_perform hreached hready hdistinct hold
  · refine (hall.map Prod.snd).nodup_iff.mpr (List.nodup_cons.mpr ⟨fun hmem => ?_, h.once⟩)
    obtain ⟨entry, hold, heq⟩ := List.mem_map.mp hmem
    have hnone := (h.gone entry hold).2
    rw [heq] at hnone
    exact nomatch hnone.symm.trans hsome
  · have hbefore := hreached.mem_endings hready hmem hnone
    rw [hafter] at hnone
    refine hall.mem_iff.mpr (List.mem_cons.mpr ?_)
    split at hnone
    · next hid =>
      have hnumbers : (c.endings.map Prod.snd).Nodup := by
        rw [map_snd_endings]
        exact (Reached.numbers_prefix hreached hready).sublist.nodup hdistinct
      exact .inl (List.inj_on_of_nodup_map hnumbers hbefore hending hid)
    · exact .inr (h.every (open_before hready hopen) entry hbefore hnone)

theorem Balanced.perform : Balanced (past ++ [⟨c, act⟩]) (c.perform act) := by
  have hkept (hnone : (Moment.mk c act).farewells = [])
      (horphans : (c.perform act).orphans = c.orphans)
      (hstill : (c.perform act).closed = none →
        ∀ number, (c.perform act).registered? number = none → c.registered? number = none) :
      Balanced (past ++ [⟨c, act⟩]) (c.perform act) := by
    have hsame : (Moment.mk c act).farewells ++ (c.perform act).orphans = c.orphans := by
      rw [hnone, horphans, List.nil_append]
    refine h.kept hreached hready hdistinct ?_ fun hopen => ⟨hsame, hstill hopen⟩
    rw [hsame]
  cases hreached.departs hready with
  | stays hregistry horphans hnone =>
    refine hkept hnone horphans fun _ number => ?_
    exact (registered?_congr hregistry number).symm.trans
  | @granted s hregistry _ horphans hnone =>
    refine hkept hnone horphans fun _ number hafter => ?_
    have hbefore := (registered?_congr hregistry number).symm.trans hafter
    change (c.register s).registered? number = none at hbefore
    rw [registered?_register] at hbefore
    split at hbefore
    · cases hbefore
    · exact hbefore
  | ended hregistry hclosed horphans hnone =>
    exact hkept hnone horphans fun hopen => absurd hopen hclosed
  | @freed id hregistry hfree horphans hnone =>
    refine hkept hnone horphans fun hopen number hafter => ?_
    have hbefore := (registered?_congr hregistry number).symm.trans hafter
    change (c.deregister id).registered? number = none at hbefore
    rw [registered?_deregister] at hbefore
    split at hbefore
    · next hnumber =>
      rw [hnumber]
      exact hfree.resolve_right fun hclosed => hclosed (open_before hready hopen)
    · exact hbefore
  | told hs hsome hregistry horphans htold =>
    refine h.left hreached hready hdistinct hs hsome hregistry (List.Perm.of_eq ?_)
    rw [htold]
    exact congrArg _ horphans
  | due hs hsome hregistry horphans hnone =>
    refine h.left hreached hready hdistinct hs hsome hregistry ?_
    rw [hnone]
    exact (List.Perm.of_eq horphans).trans (List.perm_append_singleton _ _)
  | @released entry _ hregistry horphans htold =>
    have hstill (number : Int) (hafter : (c.perform act).registered? number = none) :
        c.registered? number = none := (registered?_congr hregistry number).symm.trans hafter
    change c.orphans = entry :: (c.perform act).orphans at horphans
    refine h.kept hreached hready hdistinct ?_ fun hopen => ⟨?_, hstill⟩
    · rw [htold, horphans]
      split
      · exact List.Sublist.refl _
      · exact List.sublist_cons_self _ _
    · rw [htold, horphans]
      exact congrArg (· ++ _) (if_pos (open_before hready hopen))

omit h hreached hready hdistinct

/-- **What has left is ended or due**, in every state, if no number was granted twice. -/
theorem Reached.balanced (h : Reached config past c) (hdistinct : c.numbers.Nodup) :
    Balanced past c := by
  induction h with
  | start => exact ⟨List.forall_mem_nil _, .nil, fun _ => List.forall_mem_nil _⟩
  | perform act hready h ih =>
    have hbefore := (Reached.numbers_prefix h hready).sublist.nodup hdistinct
    exact (ih hbefore).perform h hready hdistinct

end Balance

/-! ## What is due -/

section Due

/-- In an open channel the first subscription that is due is ended in a turn. -/
theorem release_of_open (hopen : c.closed = none) (broken : Option String) :
    (c.perform (.event (.release broken))).orphans = c.orphans.drop 1 ∧
      (Moment.mk c (.event (.release broken))).farewells = c.orphans.take 1 := by
  refine ⟨?_, (farewells_release broken).trans (if_pos hopen)⟩
  change (c.step (.release broken)).1.orphans = c.orphans.drop 1
  cases horphans : c.orphans with
  | nil => rw [step_release_nil horphans, horphans, List.drop_nil]
  | cons entry orphans =>
    rw [step_release_cons horphans, orphans_begin]
    rfl

/-- Otherwise what is due stays so. -/
theorem Moment.Departs.still_due {m : Moment} (h : m.Departs) (hother : m.isRelease = false) :
    m.before.orphans <+: m.after.orphans := by
  rcases h.orphans with hsame | ⟨entry, hdue, -⟩ | ⟨hrelease, -⟩
  · exact hsame ▸ List.prefix_refl _
  · exact ⟨[entry], hdue.symm⟩
  · exact nomatch hother.symm.trans hrelease

/-- **What is due is made up for in order**: if the channel stays open, each turn ends the first
subscription that is due. -/
theorem Leads.released_in_turn (h : Leads c later d) (hreached : Reached config past c)
    (hopen : d.closed = none) :
    c.orphans.drop (later.countP Moment.isRelease) <+: d.orphans ∧
      ∀ entry ∈ c.orphans.take (later.countP Moment.isRelease), entry ∈ farewells later := by
  induction h with
  | start => exact ⟨List.prefix_refl _, List.forall_mem_nil _⟩
  | @perform later d act hready hlater ih =>
    have hbefore := open_before hready hopen
    obtain ⟨hleft, hended⟩ := ih hbefore
    rw [List.countP_append, List.countP_singleton, farewells_concat]
    cases hrelease : (Moment.mk d act).isRelease with
    | false =>
      have hgrown := (Reached.departs (hreached.append hlater) hready).still_due hrelease
      exact ⟨hleft.trans hgrown, fun entry hmem => List.mem_append_left _ (hended entry hmem)⟩
    | true =>
      obtain ⟨broken, rfl⟩ : ∃ broken, act = .event (.release broken) := by
        unfold Moment.isRelease at hrelease
        split at hrelease
        · next broken hact => exact ⟨broken, hact⟩
        · cases hrelease
      -- The turn ends the first of what is still due, which is the next of what was due at first.
      obtain ⟨hrest, hfirst⟩ := release_of_open hbefore broken
      rw [if_pos rfl, hrest, hfirst, ← List.drop_drop, List.take_add]
      refine ⟨hleft.drop 1, fun entry hmem => ?_⟩
      rcases List.mem_append.mp hmem with hold | hnow
      · exact List.mem_append_left _ (hended entry hold)
      · exact List.mem_append_right _ ((hleft.take 1).subset hnow)

end Due

/-! ## Who holds a stream -/

section Holders

variable {op : Operation} {r : Requests} {numbers : List Int} {id : Nat} {fault : Fault}
  {host : Host}

/-- The operation that has asked for a stream runs, or its caller was given the stream. -/
def Held (past : List Moment) (c : Channel) (k : Nat) : Prop :=
  (∃ op ∈ c.running, op.stream? = some k) ∨ ∃ m ∈ past, m.output = .ended (.stream k)

/-- An operation of one request was told once at most. -/
def Requests.ToldOnce (r : Requests) : Prop :=
  ∀ op ∈ r.running, op.isBatch = false → op.settled.length ≤ 1

/-- Nothing has come of an operation of one request while that is pending. -/
theorem Operation.Accounted.settled_of_pending (h : op.Accounted host past numbers r)
    (hsingle : op.isBatch = false) (hid : id ∈ op.ids) (hpending : r.isPending id = true) :
    op.settled = [] := by
  rw [List.eq_nil_iff_forall_not_mem]
  rintro ⟨n, settlement⟩ hmem
  obtain ⟨hn, hgone, -⟩ := h.settled n settlement hmem
  rw [h.single hsingle, List.mem_singleton] at hid hn
  rw [hn, ← hid, hpending] at hgone
  cases hgone

theorem Requests.ToldOnce.settle {settlement : Settlement} (h : r.ToldOnce)
    (haccounted : Accounted host past numbers r) (hpending : r.isPending id = true) :
    (r.settle id settlement).ToldOnce := by
  intro op hop hsingle
  obtain ⟨before, hbefore, rfl⟩ := List.mem_map.mp hop
  by_cases hid : before.ids.contains id
  · rw [if_pos hid] at hsingle ⊢
    have hnone := (haccounted.operations before hbefore).settled_of_pending hsingle
      (List.contains_iff_mem.mp hid) hpending
    rw [Operation.settle, hnone]
    exact Nat.le_refl 1
  · rw [if_neg hid] at hsingle ⊢
    exact h before hbefore hsingle

theorem Requests.ToldOnce.fails (hfault : ∀ error, fault ≠ .server error) (failing : List Nat)
    (h : r.ToldOnce) (haccounted : Accounted host past numbers r) :
    (failing.foldl (Requests.fail fault) r).ToldOnce := by
  induction failing generalizing r with
  | nil => exact h
  | cons id failing ih =>
    refine ih ?_ (haccounted.fail hfault id)
    rw [Requests.fail]
    split
    · next hpending => exact h.settle haccounted hpending
    · exact h

theorem Reached.toldOnce (h : Reached config past c) : c.requests.ToldOnce := by
  induction h with
  | start => exact List.forall_mem_nil _
  | @perform past c act hready h ih =>
    have haccounted := Reached.accounted h
    rcases requests_perform hready with
      ⟨id, expected, _, settlement, -, -, hpending, hrequests, -⟩ | ⟨-, heffect⟩
    · rw [hrequests]
      exact ih.settle haccounted (Channel.isPending_iff.mpr ⟨expected, hpending⟩)
    · generalize (c.perform act).requests = after at heffect ⊢
      cases heffect with
      | same => exact ih
      | begins _ hbegins =>
        cases hbegins with
        | unsent => exact ih
        | launched hlaunches =>
          intro op hop hsingle
          rcases List.mem_append.mp hop with hold | hnew
          · exact ih op hold hsingle
          · rw [List.mem_singleton.mp hnew, hlaunches.settled]
            exact Nat.zero_le 1
      | fails _ hfault failing => exact ih.fails hfault failing haccounted
      | gathers n =>
        intro op hop hsingle
        obtain ⟨before, hbefore, rfl⟩ := List.mem_map.mp hop
        split at hsingle
        · next hn =>
          rw [if_pos hn]
          exact ih before hbefore hsingle
        · next hn =>
          rw [if_neg hn]
          exact ih before hbefore hsingle
      | retires => exact fun op hop => ih op (List.mem_filter.mp hop).1

/-- The stream of an operation is there, and the operation is no batch. -/
theorem Operation.Accounted.stream_there (h : op.Accounted host past numbers r)
    (hstream : op.stream? = some k) :
    op.isBatch = false ∧ (∃ n, (n, .stream k) ∈ op.settled) ∧
      ∃ number, numbers[k]? = some number := by
  obtain ⟨⟨n, settlement⟩, hmem, hsettled⟩ := List.exists_of_findSome?_eq_some hstream
  cases settlement with
  | stream index =>
    cases hsettled
    obtain ⟨-, -, ⟨frame, -, hsingle, -, number, -, hnumber⟩ | ⟨fault, heq, -⟩⟩ :=
      h.settled n _ hmem
    · exact ⟨hsingle, ⟨n, hmem⟩, number, hnumber⟩
    · cases heq
  | _ => cases hsettled

/-- The caller of an operation that has a stream is given it, or the operation fails. -/
theorem Operation.Accounted.gives_stream {wake : Wake} {result : Result}
    (h : op.Accounted host past numbers r) (honce : op.isBatch = false → op.settled.length ≤ 1)
    (hstream : op.stream? = some k) (hverdict : op.verdict? wake = some result) :
    result = .stream k ∨ ∃ fault, result = .failed fault := by
  rcases verdict?_cases hverdict with ⟨-, rfl⟩ | ⟨fault, rfl, -⟩
  · obtain ⟨hsingle, ⟨n, hmem⟩, -⟩ := h.stream_there hstream
    obtain ⟨entry, hsettled⟩ : ∃ entry, op.settled = [entry] :=
      List.length_eq_one_iff.mp
        (Nat.le_antisymm (honce hsingle) (List.length_pos_of_mem hmem))
    rw [hsettled, List.mem_singleton] at hmem
    refine .inl ?_
    rw [Operation.result, hsettled, ← hmem]
    dsimp only [Operation.firstFault]
    rw [hsingle]
    rfl
  · exact .inr ⟨fault, rfl⟩

theorem ended?_eq_some {m : Moment} {n : Nat} (h : m.ended? = some n) :
    ∃ wake result, m.act = .event (.finish n wake) ∧ m.output = .ended result := by
  unfold Moment.ended? at h
  split at h
  · next wake result hact hout =>
    cases h
    exact ⟨wake, result, hact, hout⟩
  · cases h

theorem finish_of_output {n : Nat} {wake : Wake} {result : Result}
    (h : (Moment.mk c (.event (.finish n wake))).output = .ended result) :
    (c.finish n wake).2 = some result := by
  change Option.elim (c.finish n wake).2 Output.nothing Output.ended = .ended result at h
  cases hfinish : (c.finish n wake).2 with
  | none =>
    rw [hfinish] at h
    cases h
  | some other =>
    rw [hfinish] at h
    cases h
    rfl

/-- **A caller who gives up leaves no registration behind.** -/
theorem unregistered_of_failed {n : Nat} {wake : Wake} {o : Operation}
    (ho : c.operation? n = some o) (hstream : o.stream? = some k) (hs : c.streams[k]? = some s)
    (hfailed : (c.finish n wake).2 = some (.failed fault)) :
    (c.finish n wake).1.registered? s.id = none := by
  rcases finish_cases c n wake with
    heq | ⟨other, result, hother, -, hresult, ⟨-, hnone⟩ | ⟨fault, index, -, hindex, heq⟩⟩
  · rw [heq] at hfailed
    cases hfailed
  · cases ho.symm.trans hother
    exact absurd hstream (hnone fault k (Option.some.inj (hresult.symm.trans hfailed)))
  · cases ho.symm.trans hother
    cases hstream.symm.trans hindex
    have hregistry : (c.finish n wake).1.registry = (c.deregister s.id).registry := by
      rw [heq]
      exact (congrArg Subscriptions.registry (subscriptions_discard hs)).trans
        (registry_modifyStream _)
    rw [registered?_congr hregistry, registered?_deregister, if_pos rfl]

/-- Whoever holds a stream holds it after a moment too, unless the stream is registered no more. -/
theorem Reached.held_perform (h : Reached config past c) (hready : c.Ready act)
    (hop : op ∈ c.running) (hstream : op.stream? = some k) :
    Held (past ++ [⟨c, act⟩]) (c.perform act) k ∨
      ∃ s, c.streams[k]? = some s ∧ (c.perform act).registered? s.id = none := by
  have haccounted := h.accounted.operations op hop
  by_cases hended : (Moment.mk c act).ended? = some op.id
  · obtain ⟨wake, result, hact, hout⟩ := ended?_eq_some hended
    cases hact
    have hfinish := finish_of_output hout
    rcases finish_cases c op.id wake with heq | ⟨o, other, ho, hverdict, hresult, -⟩
    · rw [heq] at hfinish
      cases hfinish
    · have hid := List.find?_some (p := fun other : Operation => other.id == op.id) ho
      cases h.accounted.eq_of_id hop (List.mem_of_find?_eq_some ho) (beq_iff_eq.mp hid)
      cases hresult.symm.trans hfinish
      rcases haccounted.gives_stream (h.toldOnce op hop) hstream hverdict with
        rfl | ⟨fault, rfl⟩
      · exact .inl (.inr ⟨_, List.mem_concat_self, hout⟩)
      · obtain ⟨-, -, number, hnumber⟩ := haccounted.stream_there hstream
        rw [Channel.numbers, List.getElem?_map] at hnumber
        obtain ⟨s, hs, -⟩ := Option.map_eq_some_iff.mp hnumber
        exact .inr ⟨s, hs, unregistered_of_failed ho hstream hs hfinish⟩
  · -- The operation still runs, and what it was told first stays.
    have hkept : op.initial ∈ (c.perform act).running.map Operation.initial := by
      have hrunning := (h.books hready).running
      change (c.perform act).running.map Operation.initial = _ at hrunning
      rw [hrunning]
      refine List.mem_append_left _ (List.mem_filter.mpr ⟨List.mem_map_of_mem hop, ?_⟩)
      exact bne_iff_ne.mpr hended
    obtain ⟨told, htold, hsame⟩ := List.mem_map.mp hkept
    have hbears : c.requests.Bears op.id fun settled =>
        ({ op with settled } : Operation).stream? = some k := by
      intro other hother hid
      cases h.accounted.eq_of_id hop hother hid
      exact hstream
    have hafter := bears_perform hready (fun _ => haccounted.bound _ haccounted.first)
      (fun settled more hsettled => ?_) hbears
    · have hid : told.initial.id = op.initial.id := congrArg Operation.id hsame
      exact .inl (.inl ⟨told, htold, hafter told htold hid⟩)
    · unfold Operation.stream? at hsettled ⊢
      rw [List.findSome?_append, hsettled]
      rfl

/-- An answer brings a stream only to an operation that waits for one. -/
theorem settled_of_resolve (id : Int) (frame : Rpc.Frame) :
    (c.resolve id frame).streams.length = c.streams.length ∨
    ∃ n expected, (n, expected) ∈ c.pending ∧ expected.isEntry = false ∧
      (c.resolve id frame).requests = c.requests.settle n (.stream c.streams.length) := by
  unfold resolve
  split
  · exact .inl rfl
  · next n expected hfind =>
    have hpending := List.mem_of_find?_eq_some hfind
    unfold answer
    split
    · exact .inl rfl
    · exact .inl rfl
    · exact .inl rfl
    · split
      · exact .inl rfl
      · split
        · exact .inr ⟨n, _, hpending, rfl, rfl⟩
        · exact .inl rfl

theorem settled_of_grown (hready : c.Ready act)
    (hgrown : (c.perform act).streams.length ≠ c.streams.length) :
    ∃ n expected, (n, expected) ∈ c.pending ∧ expected.isEntry = false ∧
      (c.perform act).requests = c.requests.settle n (.stream c.streams.length) := by
  cases act with
  | event event => exact absurd (length_step hready) hgrown
  | retry =>
    obtain ⟨id, index, rest, hstalled⟩ := hready
    have hsame := congrArg List.length (streams_retry hstalled)
    exact absurd (hsame.trans (length_modifyStream _)) hgrown
  | route frame rest =>
    change (c.take frame rest).streams.length ≠ _ at hgrown
    change ∃ n expected, _ ∧ _ ∧ (c.take frame rest).requests = _
    cases hroute : c.route frame with
    | error fault =>
      rw [take_of_error hroute] at hgrown
      exact absurd (length_teardown c _) hgrown
    | ok after =>
      rw [streams_take hroute] at hgrown
      rw [requests_take_of_ok hroute]
      unfold route at hroute
      split at hroute
      · cases hroute
        exact (settled_of_resolve _ frame).resolve_left hgrown
      · rcases notify_eq_ok hroute with ⟨-, rfl⟩ | ⟨index, s, next, -, -, -, rfl⟩
        · exact absurd rfl hgrown
        · rw [streams_offered, length_setStream] at hgrown
          exact absurd rfl hgrown
      · cases hroute
        rw [streams_reject] at hgrown
        exact absurd rfl hgrown
      · cases hroute
        exact absurd rfl hgrown

/-- **Whatever is registered is held.** -/
theorem Reached.held_of_registered (h : Reached config past c)
    (hsome : c.registered? number = some k) : Held past c k := by
  induction h with
  | start => cases hsome
  | @perform past c act hready h ih =>
    rcases (reregisters_perform hready).before hsome with hbefore | ⟨s, -, rfl, hstreams⟩
    · rcases ih hbefore with ⟨op, hop, hstream⟩ | ⟨m, hm, hout⟩
      · rcases Reached.held_perform h hready hop hstream with hheld | ⟨s, hs, hnone⟩
        · exact hheld
        · obtain ⟨t, ht, hid⟩ := Reached.enrolled h hbefore
          cases hs.symm.trans ht
          rw [hid, hsome] at hnone
          cases hnone
      · exact .inr ⟨m, List.mem_append_left _ hm, hout⟩
    · have hgrown : (c.perform act).streams.length ≠ c.streams.length := by
        rw [hstreams, List.length_append]
        exact Nat.succ_ne_self _
      obtain ⟨n, expected, hpending, hkind, hrequests⟩ := settled_of_grown hready hgrown
      have haccounted := Reached.accounted h
      obtain ⟨op, hop, hid, hsingle⟩ := haccounted.asked n expected hpending
      have hnone := (haccounted.operations op hop).settled_of_pending (hsingle.trans hkind) hid
        (Channel.isPending_iff.mpr ⟨expected, hpending⟩)
      refine .inl ⟨op.settle n (.stream c.streams.length), ?_, ?_⟩
      · change _ ∈ (c.perform act).requests.running
        rw [hrequests]
        exact List.mem_map.mpr ⟨op, hop, if_pos (List.contains_iff_mem.mpr hid)⟩
      · rw [Operation.stream?, Operation.settle, hnone]
        rfl

end Holders

/-! ## Streams that were ended -/

section Ended

theorem step_unsubscribe_of_closed (hs : c.streams[k]? = some s) (hclosed : s.isClosed = true)
    (broken : Option String) : c.step (.unsubscribe k broken) = (c, .nothing) := by
  rw [step, unsubscribe, hs]
  dsimp only
  rw [if_pos hclosed]
  rfl

/-- A stream that its owner ends is closed. -/
theorem closed_unsubscribe (hs : c.streams[k]? = some s) (broken : Option String) :
    ∃ t, (c.step (.unsubscribe k broken)).1.streams[k]? = some t ∧ t.isClosed = true := by
  have hsilenced : ((c.deregister s.id).modifyStream k Stream.silence).streams[k]? =
      some s.silence :=
    (getElem?_modifyStream_some (c := c.deregister s.id) hs k _).trans (congrArg some (if_pos rfl))
  change ∃ t, (c.unsubscribe k broken).1.subscriptions.streams[k]? = some t ∧ t.isClosed = true
  cases hclosed : s.isClosed with
  | true =>
    have hsame := congrArg Prod.fst (step_unsubscribe_of_closed hs hclosed broken)
    change (c.unsubscribe k broken).1 = c at hsame
    rw [hsame]
    exact ⟨s, hs, hclosed⟩
  | false =>
    refine ⟨s.silence, ?_, Stream.isClosed_close⟩
    rcases unsubscribe_eq c k with ⟨hnone, -⟩ | ⟨t, ht, -, ⟨-, heq⟩ | ⟨_, _, -, -, -, htells⟩⟩
    · exact nomatch hclosed.symm.trans (hnone s hs)
    · cases hs.symm.trans ht
      rw [heq]
      exact hsilenced
    · cases hs.symm.trans ht
      obtain ⟨begun, heq, hbegun⟩ := htells broken
      rw [heq, hbegun, subscriptions_begin]
      exact hsilenced

/-- A stream that is closed stays so. -/
theorem Leads.closed_stream (h : Leads c later d) (hreached : Reached config past c)
    (hs : c.streams[k]? = some s) (hclosed : s.isClosed = true) :
    ∃ t, d.streams[k]? = some t ∧ t.isClosed = true := by
  induction h with
  | start => exact ⟨s, hs, hclosed⟩
  | @perform later d act hready hlater ih =>
    obtain ⟨t, ht, hstays⟩ := ih
    obtain ⟨change, hmakes⟩ := Reached.exists_change (hreached.append hlater) hready ht
    obtain ⟨how, hhow⟩ := Option.isSome_iff_exists.mp hstays
    refine ⟨_, hmakes.after, ?_⟩
    rw [Stream.isClosed, Stream.outcome_apply change hhow]
    rfl

end Ended

/-! ## Every run -/

section Every

theorem Leads.numbers_prefix (h : Leads c later d) (hreached : Reached config past c) :
    c.numbers <+: d.numbers := by
  induction h with
  | start => exact List.prefix_refl _
  | perform act hready hlater ih =>
    exact ih.trans (Reached.numbers_prefix (hreached.append hlater) hready)

/-- A number that has left the registry after a moment has left it for good, if none is granted
twice. -/
theorem Reached.unregistered_since {m : Moment} (h : Reached config past c)
    (hdistinct : c.numbers.Nodup) (hm : m ∈ past) (hnumber : number ∈ m.after.numbers)
    (hnone : m.after.registered? number = none) :
    number ∈ c.numbers ∧ c.registered? number = none := by
  induction h with
  | start => cases hm
  | @perform past c act hready h ih =>
    have hgrown := Reached.numbers_prefix h hready
    rcases List.mem_append.mp hm with hold | hlast
    · obtain ⟨hthere, hleft⟩ := ih (hgrown.sublist.nodup hdistinct) hold
      exact ⟨hgrown.subset hthere, unregistered_perform hready hdistinct hthere hleft⟩
    · cases List.mem_singleton.mp hlast
      exact ⟨hnumber, hnone⟩

/-- What becomes due has a turn of its own. -/
theorem Moment.Departs.turn {m : Moment} (h : m.Departs) {entry : String × Int}
    (hafter : entry ∈ m.after.orphans) (hbefore : entry ∉ m.before.orphans) :
    Turn.release ∈ m.after.turns.drop m.before.turns.length := by
  rcases h.orphans with hsame | ⟨_, -, hturn⟩ | ⟨-, first, hreleased⟩
  · exact absurd (hsame ▸ hafter) hbefore
  · exact hturn
  · rw [hreleased] at hbefore
    exact absurd (List.mem_cons_of_mem first hafter) hbefore

/-- **No subscription is ended twice, and none is left out.** If the service grants no number twice,
the following holds in every run.

What is handed over is sent, unless the connection is broken. A caller who is told of a fault leaves
no registration behind: its number has left the registry, then and for good; and whatever is
registered is held by an operation that runs or by a caller who was given the stream. What has left
the registry of an open channel is ended at the service or due to be, by its own method and once;
what is still registered is neither. What becomes due gets a turn of its own, and if the channel is
still open when the turns have come of everything that was due, each subscription that had left by
then has been ended. However often an owner ends a stream, only the first time counts. -/
theorem registrations_released (config : Config) (events : List Event)
    (hdistinct : (Channel.after events { config }).numbers.Nodup) :
    let past := history events { config }
    let c := Channel.after events { config }
    (∀ m ∈ past, m.after.sent = m.before.sent ++ m.handed ∨ m.after.sent = m.before.sent ∧
      ∃ event reason, m.act = .event event ∧ event.broken? = some reason) ∧
    (∀ m ∈ past, ∀ n wake fault o k s, m.act = .event (.finish n wake) →
      m.output = .ended (.failed fault) → m.before.operation? n = some o →
      o.stream? = some k → m.before.streams[k]? = some s →
      m.after.registered? s.id = none ∧ c.registered? s.id = none) ∧
    (∀ number k, c.registered? number = some k → Held past c k) ∧
    Balanced past c ∧
    (∀ m ∈ past, ∀ entry ∈ m.after.orphans, entry ∉ m.before.orphans →
      Turn.release ∈ m.after.turns.drop m.before.turns.length) ∧
    (∀ earlier later, events = earlier ++ later → c.closed = none →
      let d := Channel.after earlier { config }
      d.orphans.length ≤ (history later d).countP Moment.isRelease →
      ∀ s ∈ d.streams, d.registered? s.id = none → s.farewell ∈ farewells past) ∧
    (∀ k < c.streams.length, ∀ broken more again,
      let d := Channel.after (.unsubscribe k broken :: more) c
      d.step (.unsubscribe k again) = (d, .nothing)) := by
  intro past c
  have hreached : Reached config past c := reached_after config events
  refine ⟨fun m hm => ?_, ?_, fun number k => hreached.held_of_registered,
    hreached.balanced hdistinct, fun m hm entry hafter hbefore => ?_, ?_, ?_⟩
  · obtain ⟨earlier, -, -, hbefore, hready⟩ := hreached.before hm
    exact sent_moment hready
  · intro m hm n wake fault o k s hact hout ho hstream hs
    obtain ⟨earlier, -, -, hbefore, hready⟩ := hreached.before hm
    obtain ⟨before, act⟩ := m
    cases hact
    have hnone := unregistered_of_failed ho hstream hs (finish_of_output hout)
    have hnumber : s.id ∈ before.numbers := List.mem_map_of_mem (List.mem_of_getElem? hs)
    have hthere := (Reached.numbers_prefix hbefore hready).subset hnumber
    exact ⟨hnone, (hreached.unregistered_since hdistinct hm hthere hnone).2⟩
  · obtain ⟨earlier, -, -, hfirst, hready⟩ := hreached.before hm
    exact (Reached.departs hfirst hready).turn hafter hbefore
  · rintro earlier later rfl hopen d hturns s hs hnone
    have hfirst : Reached config (history earlier { config }) d := reached_after config earlier
    have hafter : c = Channel.after later d := List.foldl_append
    have hleads : Leads d (history later d) c := hafter ▸ leads_after later d
    have hbefore : d.closed = none := by
      cases hclosed : d.closed with
      | none => rfl
      | some reason => exact nomatch hopen.symm.trans (hleads.closed hclosed).1
    have hbalanced := hfirst.balanced ((hleads.numbers_prefix hfirst).sublist.nodup hdistinct)
    have hpast : farewells past =
        farewells (history earlier { config }) ++ farewells (history later d) := by
      rw [← farewells_append, ← history_append]
    rw [hpast, List.mem_append]
    refine (List.mem_append.mp (hbalanced.every hbefore _ (List.mem_map_of_mem hs) hnone)).imp_right
      fun hdue => ?_
    refine (hleads.released_in_turn hfirst hopen).2 _ ?_
    rwa [List.take_of_length_le hturns]
  · intro k hk broken more again d
    obtain ⟨t, ht, hclosed⟩ :=
      closed_unsubscribe (List.getElem?_eq_getElem hk) broken
    have hstep := Leads.step hreached (.unsubscribe k broken)
    obtain ⟨u, hu, hstays⟩ := (leads_after more _).closed_stream hstep ht hclosed
    exact step_unsubscribe_of_closed hu hstays again

/-- One caller gives up after its subscription was granted, and another ends its stream twice. -/
theorem registrations_released_given_up :
    let events : List Event :=
      [.start, .subscribe Rpc.Feed.root {} false none, .subscribe Rpc.Feed.root {} false none,
        .accept (Utf8.encode "\x7b\"id\":1,\"result\":7\x7d"),
        .accept (Utf8.encode "\x7b\"id\":2,\"result\":8\x7d"),
        .finish 1 .abort, .finish 2 .answer, .unsubscribe 1 none, .unsubscribe 1 none,
        .release none]
    (Channel.after events { config := {} }).numbers = [7, 8] ∧
      Balanced (history events { config := {} }) (Channel.after events { config := {} }) ∧
      farewells (history events { config := {} }) =
        [("rootUnsubscribe", 8), ("rootUnsubscribe", 7)] := by
  intro events
  have hnumbers : (Channel.after events { config := {} }).numbers = [7, 8] := by
    cbv
  have hfarewells : farewells (history events { config := {} }) =
      [("rootUnsubscribe", 8), ("rootUnsubscribe", 7)] := by
    cbv
  have hdistinct : (Channel.after events { config := {} }).numbers.Nodup := by
    rw [hnumbers]
    decide
  obtain ⟨-, -, -, hbalanced, -⟩ := registrations_released {} events hdistinct
  exact ⟨hnumbers, hbalanced, hfarewells⟩

end Every

end LedgerClient.Channel
