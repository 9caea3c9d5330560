import Mathlib
import LedgerClient.Proofs.Channel.Backpressure

/-!
# The accounts of all streams

Every moment of a run makes one change to a stream that is there, and every change keeps its
account, so the account of each stream holds throughout a run. What has arrived, and what consumers
got, is read off the history.

What consumers got and what still waits is not all of it. A consumer that is called may find that
the owner has ended the stream: it has taken a notification then, and does not get it. And a reader
that ends while it waits with a notification takes that along.

Fixed texts are evaluated by `cbv` here, whose equations for strings and bytes are spread over the
whole library.

## Main definitions

* `Channel.arrivedIn`, `Channel.returnedIn`, `Channel.withheldIn`: what has come to a stream, and
  what was taken from it
* `Channel.leaving`, `Channel.severed`: runs in which a notification is taken along

## Main results

* `Channel.Reached.undergoes`: each stream undergoes a run of changes
* `Channel.Reached.tallied`: the account of a stream holds in every state
* `Channel.stream_accounting`: nothing is lost, doubled or put out of order beyond what the
  overflow policy says
* `Channel.not_accounted_alone`: what consumers got and what waits is no account by itself
-/

namespace LedgerClient.Channel

open Rpc (Reply)

variable {config : Config} {past : List Moment} {c : Channel} {m : Moment} {k : Nat} {s : Stream}

/-- What has come to a stream. -/
def arrivedIn (past : List Moment) (k : Nat) : List Reply := past.flatMap (·.arrived k)

/-- What the consumers of a stream got. -/
def returnedIn (past : List Moment) (k : Nat) : List Reply := past.flatMap (·.returned k)

/-- What the consumers of a stream took but did not get, since its owner had ended it. -/
def withheldIn (past : List Moment) (k : Nat) : List Reply := past.flatMap (·.withheld k)

theorem arrivedIn_append (past : List Moment) (m : Moment) (k : Nat) :
    arrivedIn (past ++ [m]) k = arrivedIn past k ++ m.arrived k := by
  rw [arrivedIn, List.flatMap_append, List.flatMap_singleton, arrivedIn]

theorem returnedIn_append (past : List Moment) (m : Moment) (k : Nat) :
    returnedIn (past ++ [m]) k = returnedIn past k ++ m.returned k := by
  rw [returnedIn, List.flatMap_append, List.flatMap_singleton, returnedIn]

theorem withheldIn_append (past : List Moment) (m : Moment) (k : Nat) :
    withheldIn (past ++ [m]) k = withheldIn past k ++ m.withheld k := by
  rw [withheldIn, List.flatMap_append, List.flatMap_singleton, withheldIn]

/-! ## Before a stream is there -/

section Before

theorem Moment.arrived_of_none (h : m.before.streams[k]? = none) : m.arrived k = [] := by
  unfold Moment.arrived
  split
  · unfold arrivals
    rw [h]
    split
    · next hnone => cases hnone
    · rfl
  · rfl

theorem output_consume_of_none (h : c.streams[k]? = none) (f : Stream → Stream × Received) :
    (c.consume k f).2.replies = [] := by
  rw [consume, h]
  rfl

theorem Moment.returned_of_none (h : m.before.streams[k]? = none) : m.returned k = [] := by
  obtain ⟨c, act⟩ := m
  have hconsume (index : Nat) (f : Stream → Stream × Received) :
      (if index = k then (c.consume index f).2.replies else []) = [] := by
    split
    · next hk =>
      subst hk
      exact output_consume_of_none h f
    · rfl
  cases act with
  | event event =>
    cases event with
    | receive index task => exact hconsume index _
    | resume index task => exact hconsume index _
    | _ => rfl
  | route | retry => rfl

theorem Moment.withheld_of_none (h : m.before.streams[k]? = none) : m.withheld k = [] := by
  unfold Moment.withheld
  split
  · rw [h]
    exact ite_self _
  · rfl

/-- Nothing has come to a stream that is not there yet. -/
theorem Reached.untouched (h : Reached config past c) (hnone : c.streams[k]? = none) :
    arrivedIn past k = [] ∧ returnedIn past k = [] ∧ withheldIn past k = [] ∧
      ∀ m ∈ past, ¬ m.Overruns k := by
  induction h with
  | start => exact ⟨rfl, rfl, rfl, fun m hm => absurd hm List.not_mem_nil⟩
  | @perform past c act hready h ih =>
    -- Streams are never taken away, so this one was not there before the moment either.
    have hbefore : c.streams[k]? = none := by
      cases hs : c.streams[k]? with
      | none => rfl
      | some s =>
        obtain ⟨change, hmakes⟩ := Reached.exists_change h hready hs
        exact nomatch hnone.symm.trans hmakes.after
    obtain ⟨harrived, hreturned, hwithheld, hover⟩ := ih hbefore
    have hnothing := Moment.arrived_of_none (m := ⟨c, act⟩) hbefore
    refine ⟨?_, ?_, ?_, ?_⟩
    · rw [arrivedIn_append, harrived, hnothing]
      rfl
    · rw [returnedIn_append, hreturned, Moment.returned_of_none hbefore]
      rfl
    · rw [withheldIn_append, hwithheld, Moment.withheld_of_none hbefore]
      rfl
    · intro m hm
      rcases List.mem_append.mp hm with hm | hm
      · exact hover m hm
      · cases List.mem_singleton.mp hm
        exact fun hoverruns => hoverruns.1 hnothing

end Before

/-! ## Every stream -/

section Every

/-- A moment overruns a stream just when the change that it makes does. -/
theorem Moment.Makes.overruns {change : Stream.Change} (h : m.Makes k s change)
    (hs : m.before.streams[k]? = some s) : m.Overruns k ↔ change.Overruns s := by
  rw [Moment.Overruns, h.arrived]
  cases change with
  | arrive reply =>
    constructor
    · rintro ⟨-, t, ht, hfull⟩
      cases hs.symm.trans ht
      exact hfull
    · exact fun hfull => ⟨List.cons_ne_nil _ _, s, hs, hfull⟩
  | _ => exact ⟨fun hoverruns => hoverruns.1 rfl, False.elim⟩

/-- **Each stream of a channel undergoes changes, each of them due**, from the moment it is
registered; they bring to it and take from it what the moments of the channel do. -/
theorem Reached.undergoes (h : Reached config past c) (hs : c.streams[k]? = some s) :
    ∃ changes, Stream.Undergoes s.terms.stream changes s ∧
      Stream.arrivedIn changes = arrivedIn past k ∧
      Stream.returnedIn changes = returnedIn past k ∧
      Stream.withheldIn changes = withheldIn past k ∧
      ((∃ o ∈ changes, o.change.Overruns o.before) ↔ ∃ m ∈ past, m.Overruns k) := by
  induction h generalizing s with
  | start => cases hs
  | @perform past c act hready h ih =>
    cases hbefore : c.streams[k]? with
    | none =>
      obtain ⟨-, -, number, feed, options, rfl⟩ := new_of_getElem?_perform hready hbefore hs
      obtain ⟨harrived, hreturned, hwithheld, hnever⟩ := Reached.untouched h hbefore
      have hnothing := Moment.arrived_of_none (m := ⟨c, act⟩) hbefore
      refine ⟨[], .start, ?_, ?_, ?_, ?_⟩
      · rw [arrivedIn_append, harrived, hnothing]
        rfl
      · rw [returnedIn_append, hreturned, Moment.returned_of_none hbefore]
        rfl
      · rw [withheldIn_append, hwithheld, Moment.withheld_of_none hbefore]
        rfl
      · refine ⟨fun ⟨o, ho, _⟩ => absurd ho List.not_mem_nil, fun ⟨m, hm, hoverruns⟩ => ?_⟩
        rcases List.mem_append.mp hm with hm | hm
        · exact absurd hoverruns (hnever m hm)
        · cases List.mem_singleton.mp hm
          exact absurd hnothing hoverruns.1
    | some t =>
      obtain ⟨changes, hchanges, harrived, hreturned, hwithheld, hover⟩ := ih hbefore
      obtain ⟨change, hmakes⟩ := Reached.exists_change h hready hbefore
      cases hmakes.after.symm.trans hs
      rw [Stream.terms_apply]
      refine ⟨_, hchanges.apply change hmakes.due, ?_, ?_, ?_, ?_⟩
      · rw [arrivedIn_append, hmakes.arrived, ← harrived]
        exact List.flatMap_append.trans (congrArg _ (List.flatMap_singleton _ _))
      · rw [returnedIn_append, hmakes.returned, ← hreturned]
        exact List.flatMap_append.trans (congrArg _ (List.flatMap_singleton _ _))
      · rw [withheldIn_append, hmakes.withheld, ← hwithheld]
        exact List.flatMap_append.trans (congrArg _ (List.flatMap_singleton _ _))
      · have hlast := hmakes.overruns hbefore
        simp only [List.mem_append, List.mem_singleton, or_and_right, exists_or, exists_eq_left,
          hover, hlast]

/-- **The account of a stream holds in every state.** -/
theorem Reached.tallied (h : Reached config past c) (hs : c.streams[k]? = some s) :
    s.Sound ∧ s.Tallied (arrivedIn past k) (returnedIn past k) (withheldIn past k)
      (∃ m ∈ past, m.Overruns k) := by
  obtain ⟨changes, hchanges, harrived, hreturned, hwithheld, hover⟩ := h.undergoes hs
  obtain ⟨hnew, hempty⟩ := Stream.tallied_stream s.terms
  obtain ⟨hsound, htallied⟩ := hchanges.tallied hnew hempty
  rw [harrived, hreturned, hwithheld, propext hover, false_or] at htallied
  exact ⟨hsound, htallied⟩

/-- **Nothing is lost, doubled or put out of order beyond what the overflow policy says.** The
notifications that wait never exceed the capacity of a stream. Where the policy is to lag or to
block, what consumers got and what waits is what has come first, in order; while the stream is open
only the notification is missing that the reader waits with. Under the policy to lag the stream
has lagged just when a notification came while as many waited as may, and everything that waits is
got before the fault. Under the policy to drop, what is missing is counted. Only from a stream that
its owner has ended a consumer may have taken a notification without getting it. -/
theorem stream_accounting (config : Config) (events : List Event) (k : Nat) (s : Stream)
    (hs : (Channel.after events { config }).streams[k]? = some s) (hcapacity : 1 ≤ s.capacity) :
    let c := Channel.after events { config }
    let past := history events { config }
    let A := arrivedIn past k
    let R := returnedIn past k
    let W := withheldIn past k
    (s.notes.length : Int) ≤ s.capacity ∧ (s.quiet = false → W = []) ∧
    (s.overflow ≠ .drop → (R ++ W ++ s.notes) <+: A ∧
      (s.isClosed = false → A = R ++ s.notes ++ s.held.toList ∧
        (s.held.isSome = true → (∃ id rest, c.reader = .stalled id k rest) ∨ c.reader = .ended))) ∧
    (s.overflow = .lag →
      (s.outcome = some (some (.lagged s.id s.capacity)) ↔ ∃ m ∈ past, m.Overruns k)) ∧
    (∀ fault, s.outcome = some (some fault) → ∀ tasks, s.receives tasks =
      (s.notes.map Received.item ++ List.replicate tasks.length (Received.failed fault)).take
        tasks.length) ∧
    (∀ task fault, (s.receive task).2 = .failed fault ∨ (s.resume task).2 = .failed fault →
      s.notes = []) ∧
    (s.overflow = .drop → (R ++ W ++ s.notes).Sublist A ∧
      A.length = R.length + W.length + s.notes.length + s.dropped) := by
  have hreached := reached_after config events
  obtain ⟨hsound, htallied⟩ := hreached.tallied hs
  have hpos : 0 ≤ s.capacity := Int.le_trans (by decide) hcapacity
  refine ⟨htallied.fits hpos, htallied.withheld, fun hkeeps => ?_,
    fun hlag => htallied.lagged hlag hpos,
    fun fault hfault => Stream.receives_of_failed hsound hfault, ?_,
    htallied.thinned⟩
  · obtain ⟨lost, heq, hlost⟩ := htallied.inOrder hkeeps
    refine ⟨⟨lost, heq.symm⟩, fun hopen => ⟨?_, hreached.held hs⟩⟩
    -- An owner who takes nothing more has closed the stream, so nothing was withheld.
    have hloud : s.quiet = false := by
      cases hquiet : s.quiet with
      | false => rfl
      | true =>
        rw [Stream.isClosed, hsound.quiet hquiet] at hopen
        cases hopen
    rw [heq, hlost hopen, htallied.withheld hloud, List.append_nil]
  · rintro task fault (hreceive | hresume)
    · exact hsound.notes_of_receive hreceive
    · exact hsound.notes_of_resume hresume

/-- A second notification comes to a stream of one place, and the stream lags. -/
theorem stream_accounting_lagging :
    let events : List Event :=
      [.start, .subscribe Rpc.Feed.root { capacity := some 1 } false none,
        .accept (Utf8.encode "\x7b\"id\":1,\"result\":7\x7d"),
        .accept (Utf8.encode "\x7b\"params\":\x7b\"subscription\":7,\"result\":5\x7d\x7d"),
        .accept (Utf8.encode "\x7b\"params\":\x7b\"subscription\":7,\"result\":6\x7d\x7d")]
    ∃ s, (Channel.after events { config := {} }).streams[0]? = some s ∧ 1 ≤ s.capacity ∧
      (s.notes.length : Int) ≤ s.capacity ∧
      ∃ m ∈ history events { config := {} }, m.Overruns 0 := by
  intro events
  have hs : (Channel.after events { config := {} }).streams[0]? = some
      { id := 7, feed := Rpc.Feed.root, ending := "rootUnsubscribe", capacity := 1, overflow := .lag
        queue := [.note (.plain (.int 5)), .ending], outcome := some (some (.lagged 7 1))
        space := true } := by
    cbv
  obtain ⟨hfits, -, -, hlagged, -⟩ := stream_accounting {} events 0 _ hs (by decide)
  exact ⟨_, hs, by decide, hfits, (hlagged rfl).mp rfl⟩

/-! ## What does not add up -/

/-- A consumer waits and two notifications come, but the owner ends the stream before the consumer
has its turn. -/
def leaving (overflow : Overflow) : List Event :=
  [.start, .subscribe .root { capacity := some 2, overflow := some overflow } false none,
    .accept (Utf8.encode "\x7b\"id\":1,\"result\":7\x7d"), .receive 0 1,
    .accept (Utf8.encode "\x7b\"params\":\x7b\"subscription\":7,\"result\":5\x7d\x7d"),
    .accept (Utf8.encode "\x7b\"params\":\x7b\"subscription\":7,\"result\":6\x7d\x7d"),
    .unsubscribe 0 none, .resume 0 1]

/-- Two streams have one number. The owner of the first ends it while the reader waits with a
notification for the second, which is registered no more when the reader ends. -/
def severed : List Event :=
  [.start, .subscribe .root { capacity := some 1, overflow := some .block } false none,
    .subscribe .root { capacity := some 1, overflow := some .block } false none,
    .accept (Utf8.encode "\x7b\"id\":1,\"result\":7\x7d"),
    .accept (Utf8.encode "\x7b\"id\":2,\"result\":7\x7d"),
    .accept (Utf8.encode "\x7b\"params\":\x7b\"subscription\":7,\"result\":5\x7d\x7d"),
    .accept (Utf8.encode "\x7b\"params\":\x7b\"subscription\":7,\"result\":6\x7d\x7d"),
    .unsubscribe 0 none, .shut, .fail "connection closed"]

theorem arrivedIn_severed :
    arrivedIn (history severed { config := {} }) 1 = [.plain (.int 5), .plain (.int 6)] ∧
      returnedIn (history severed { config := {} }) 1 = [] := by
  refine ⟨?_, ?_⟩ <;> cbv

theorem after_severed :
    (Channel.after severed { config := {} }).reader = .ended ∧
    (Channel.after severed { config := {} }).streams[1]? = some
      { id := 7, feed := .root, ending := "rootUnsubscribe", capacity := 1, overflow := .block
        queue := [.note (.plain (.int 5))], held := some (.plain (.int 6)) } := by
  refine ⟨?_, ?_⟩ <;> cbv

/-- What consumers got and what waits alone is no account: it is no beginning of what has come, and
not all of it counted, where a consumer took a notification without getting it; nor is it all that
has come to an open stream where the reader has ended while it waited. -/
theorem not_accounted_alone :
    (∃ s : Stream, (Channel.after (leaving .block) { config := {} }).streams[0]? = some s ∧
      1 ≤ s.capacity ∧ s.overflow = .block ∧
      ¬ (returnedIn (history (leaving .block) { config := {} }) 0 ++ s.notes) <+:
        arrivedIn (history (leaving .block) { config := {} }) 0) ∧
    (∃ s : Stream, (Channel.after (leaving .drop) { config := {} }).streams[0]? = some s ∧
      1 ≤ s.capacity ∧ s.overflow = .drop ∧
      (arrivedIn (history (leaving .drop) { config := {} }) 0).length ≠
        (returnedIn (history (leaving .drop) { config := {} }) 0).length + s.notes.length +
          s.dropped) ∧
    (∃ s : Stream, (Channel.after severed { config := {} }).streams[1]? = some s ∧
      1 ≤ s.capacity ∧ s.overflow = .block ∧ s.isClosed = false ∧
      (Channel.after severed { config := {} }).reader = .ended ∧
      arrivedIn (history severed { config := {} }) 1 ≠
        returnedIn (history severed { config := {} }) 1 ++ s.notes) := by
  have hleaving (overflow : Overflow) :
      arrivedIn (history (leaving overflow) { config := {} }) 0 =
        [.plain (.int 5), .plain (.int 6)] ∧
      returnedIn (history (leaving overflow) { config := {} }) 0 = [] ∧
      (Channel.after (leaving overflow) { config := {} }).streams[0]? = some
        { id := 7, feed := .root, ending := "rootUnsubscribe", capacity := 2, overflow
          queue := [.note (.plain (.int 6)), .ending], outcome := some none, quiet := true
          space := true } := by
    refine ⟨?_, ?_, ?_⟩ <;> cbv
  refine ⟨?_, ?_, ?_⟩
  · obtain ⟨harrived, hreturned, hstream⟩ := hleaving .block
    refine ⟨_, hstream, by decide, rfl, ?_⟩
    rw [harrived, hreturned]
    rintro ⟨rest, heq⟩
    cases heq
  · obtain ⟨harrived, hreturned, hstream⟩ := hleaving .drop
    refine ⟨_, hstream, by decide, rfl, ?_⟩
    rw [harrived, hreturned]
    decide
  · obtain ⟨harrived, hreturned⟩ := arrivedIn_severed
    obtain ⟨hended, hstream⟩ := after_severed
    refine ⟨_, hstream, by decide, rfl, rfl, hended, ?_⟩
    rw [harrived, hreturned]
    intro heq
    exact absurd (congrArg List.length heq) (by decide)

end Every

end LedgerClient.Channel
