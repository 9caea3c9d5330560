import LedgerClient.Proofs.Channel.Stream

/-!
# The account of a stream

Of the notifications that come to a stream some have been taken by a consumer, some wait, and some
are lost; under the policies that drop none, only what comes last can be lost. A consumer that was
called before the owner ended the stream still takes a notification, but does not get it: such
notifications are withheld.

The account is kept by every change of a stream, for any number of consumers.

## Main definitions

* `Channel.Stream.Change.arrived`, `returned`, `withheld`: what a change brings and takes
* `Channel.Stream.Tallied`: the account of a stream
* `Channel.Stream.receives`: what consumers get that come one after the other

## Main results

* `Channel.Stream.Tallied.apply`: every change keeps the account
* `Channel.Stream.receives_of_failed`: who comes to a stream that failed gets what waits, in
  order, and then the fault
-/

namespace LedgerClient.Channel

open Rpc (Reply)

/-- The notification that a consumer gets, if it gets one. -/
def Received.replies : Received → List Reply
  | .item reply => [reply]
  | _ => []

namespace Stream

variable {s t : Stream} {task : Nat} {reply : Reply} {how : Option Fault}
  {A R W : List Reply} {O : Prop}

/-- What a consumer takes that looks again at a stream whose owner has ended it: it was called
before the end, and gets nothing. -/
def withheldFrom (task : Nat) (s : Stream) : List Reply :=
  if s.quiet && s.called.contains task then s.notes.take 1 else []

namespace Change

/-- The notification that comes in a change. -/
def arrived : Change → List Reply
  | .arrive reply => [reply]
  | _ => []

/-- The notification that a consumer gets in a change. -/
def returned : Change → Stream → List Reply
  | .receive task, s => (s.receive task).2.replies
  | .resume task, s => (s.resume task).2.replies
  | _, _ => []

/-- The notification that a consumer takes in a change without getting it. -/
def withheld : Change → Stream → List Reply
  | .resume task, s => s.withheldFrom task
  | _, _ => []

/-- A notification comes when as many wait as may. -/
def Overruns (s : Stream) : Change → Prop
  | .arrive _ => (s.notes.length : Int) = s.capacity
  | _ => False

end Change

/-- The account of a stream: what has arrived, what consumers got, what was withheld from them,
and whether a notification has come when as many waited as may. -/
structure Tallied (A R W : List Reply) (O : Prop) (s : Stream) : Prop where
  withheld : s.quiet = false → W = []
  fits : 0 ≤ s.capacity → (s.notes.length : Int) ≤ s.capacity
  holds : s.held.isSome = true → s.overflow = .block
  inOrder : s.overflow ≠ .drop → ∃ lost,
    A = R ++ W ++ s.notes ++ lost ∧ (s.isClosed = false → lost = s.held.toList)
  lagged : s.overflow = .lag → 0 ≤ s.capacity →
    (s.outcome = some (some (.lagged s.id s.capacity)) ↔ O)
  thinned : s.overflow = .drop → (R ++ W ++ s.notes).Sublist A ∧
    A.length = R.length + W.length + s.notes.length + s.dropped

/-- A new stream has an empty account. -/
theorem tallied_stream (terms : Terms) :
    terms.stream.Sound ∧ terms.stream.Tallied [] [] [] False := by
  refine ⟨⟨rfl, nofun, fun hwaiting => absurd rfl hwaiting⟩, fun _ => rfl, fun hpos => hpos,
    nofun, fun _ => ⟨[], rfl, fun _ => rfl⟩, fun _ _ => ⟨nofun, nofun⟩, fun _ => ⟨?_, rfl⟩⟩
  exact List.Sublist.refl _

theorem Sound.length_queue (h : s.Sound) (hopen : s.isClosed = false) :
    s.queue.length = s.notes.length := by
  rw [h.queue, hopen, List.length_append, List.length_map]
  rfl

theorem Sound.notes_put (h : s.Sound) (hopen : s.isClosed = false) :
    (s.put (.note reply)).notes = s.notes ++ [reply] :=
  notes_of_queue (queue_put_note h hopen)

theorem notes_close
    (hqueue : s.queue = s.notes.map .note ++ if s.isClosed then [.ending] else []) :
    (s.close how).notes = s.notes := by
  cases hclosed : s.isClosed with
  | true => rw [close_of_isClosed hclosed]
  | false =>
    rw [hclosed] at hqueue
    rw [close_of_open hclosed]
    have hmarked : s.queue ++ [.ending] = s.notes.map .note ++ if true then [.ending] else [] := by
      rw [hqueue]
      simp
    exact notes_of_queue hmarked

/-! ## A change at a time -/

section Steps

/-- A change that moves no notification keeps the account. -/
theorem Tallied.sameBut (h : s.Tallied A R W O) (hsame : s.SameBut t) (hnotes : t.notes = s.notes) :
    t.Tallied A R W O := by
  have hcapacity : t.capacity = s.capacity := congrArg Terms.capacity hsame.terms
  have hoverflow : t.overflow = s.overflow := congrArg Terms.overflow hsame.terms
  have hid : t.id = s.id := congrArg Terms.id hsame.terms
  constructor
  · rw [hsame.quiet]
    exact h.withheld
  · rw [hcapacity, hnotes]
    exact h.fits
  · rw [hsame.held, hoverflow]
    exact h.holds
  · rw [hoverflow, hnotes, hsame.isClosed, hsame.held]
    exact h.inOrder
  · rw [hoverflow, hcapacity, hsame.outcome, hid]
    exact h.lagged
  · rw [hoverflow, hnotes, hsame.dropped]
    exact h.thinned

/-- The first notification is taken; its consumer gets it unless the owner has ended the
stream. -/
theorem Tallied.taken (h : s.Tallied A R W O) (hsame : s.SameBut t)
    (hnotes : s.notes = reply :: t.notes) :
    t.Tallied A (R ++ if s.quiet then [] else [reply]) (W ++ if s.quiet then [reply] else [])
      O := by
  have hcapacity : t.capacity = s.capacity := congrArg Terms.capacity hsame.terms
  have hoverflow : t.overflow = s.overflow := congrArg Terms.overflow hsame.terms
  have hid : t.id = s.id := congrArg Terms.id hsame.terms
  have hmoved : (R ++ if s.quiet then [] else [reply]) ++
      (W ++ if s.quiet then [reply] else []) ++ t.notes = R ++ W ++ s.notes := by
    cases hquiet : s.quiet with
    | true => simp [hnotes]
    | false => simp [hnotes, h.withheld hquiet]
  constructor
  · intro hquiet
    rw [hsame.quiet] at hquiet
    rw [hquiet, h.withheld hquiet]
    rfl
  · intro hpos
    have hfits := h.fits (hcapacity ▸ hpos)
    rw [hnotes, List.length_cons] at hfits
    rw [hcapacity]
    omega
  · rw [hsame.held, hoverflow]
    exact h.holds
  · rw [hoverflow, hsame.isClosed, hsame.held, hmoved]
    exact h.inOrder
  · rw [hoverflow, hcapacity, hsame.outcome, hid]
    exact h.lagged
  · intro hdrop
    obtain ⟨hsub, hlen⟩ := h.thinned (hoverflow ▸ hdrop)
    refine ⟨hmoved ▸ hsub, ?_⟩
    have hcount := congrArg List.length hmoved
    simp only [List.length_append] at hcount hlen ⊢
    rw [hsame.dropped]
    omega

/-- A look of a consumer keeps the account. -/
theorem Tallied.look (h : s.Tallied A R W O)
    (hqueue : s.queue = s.notes.map .note ++ if s.isClosed then [.ending] else []) (task : Nat) :
    (s.look task).1.Tallied A (R ++ (s.look task).2.replies)
      (W ++ if s.quiet then s.notes.take 1 else []) O := by
  have hsame : s.SameBut (s.look task).1 := sameBut_look
  rcases look_cases task hqueue with
    ⟨hnotes, -, heq⟩ | ⟨reply, rest, hnotes, heq⟩ | ⟨hnotes, -, heq⟩
  · have hkept : (s.look task).1.notes = s.notes := by rw [heq]; rfl
    have hout : (s.look task).2.replies = [] := by rw [heq]; rfl
    rw [hout, hnotes, List.append_nil]
    simpa using h.sameBut hsame hkept
  · have htaken : s.notes = reply :: (s.look task).1.notes := by
      rw [heq, hnotes]
      exact congrArg _ (notes_of_queue rfl).symm
    have hout : (s.look task).2.replies = if s.quiet then [] else [reply] := by
      rw [heq]
      cases s.quiet <;> rfl
    rw [hout, hnotes]
    exact h.taken hsame htaken
  · have hkept : (s.look task).1.notes = s.notes := by rw [heq]; rfl
    have hout : (s.look task).2.replies = [] := by
      rw [heq]
      dsimp only
      split <;> rfl
    rw [hout, hnotes, List.append_nil]
    simpa using h.sameBut hsame hkept

/-- A stream that is closed otherwise than by lag keeps its account. -/
theorem Tallied.close (h : s.Tallied A R W O)
    (hqueue : s.queue = s.notes.map .note ++ if s.isClosed then [.ending] else [])
    (hhow : ∀ id capacity, how ≠ some (.lagged id capacity)) : (s.close how).Tallied A R W O := by
  cases hclosed : s.isClosed with
  | true =>
    rw [close_of_isClosed hclosed]
    exact h
  | false =>
    have hnotes : (s.close how).notes = s.notes := notes_close hqueue
    have heq : s.close how = _ := close_of_open hclosed
    constructor
    · rw [heq]
      exact h.withheld
    · rw [hnotes, heq]
      exact h.fits
    · rw [heq]
      exact h.holds
    · rw [hnotes, heq]
      intro hkeeps
      obtain ⟨lost, hlost, -⟩ := h.inOrder hkeeps
      exact ⟨lost, hlost, fun hopen => Bool.noConfusion hopen⟩
    · rw [heq]
      intro hlag hpos
      have hbefore := h.lagged hlag hpos
      rw [isClosed_eq_false.mp hclosed] at hbefore
      constructor
      · intro hlagged
        exact absurd (Option.some.inj hlagged) (hhow _ _)
      · intro hover
        exact nomatch hbefore.mpr hover
    · rw [hnotes, heq]
      exact h.thinned

/-- Nothing has been lost by a stream that is open and holds nothing back. -/
theorem Tallied.kept (h : s.Tallied A R W O) (hopen : s.isClosed = false) (hheld : s.held = none)
    (hkeeps : s.overflow ≠ .drop) : A = R ++ W ++ s.notes := by
  obtain ⟨lost, hlost, hnone⟩ := h.inOrder hkeeps
  rw [hlost, hnone hopen, hheld]
  exact List.append_nil _

/-- A notification for which there is room is put. -/
theorem Tallied.put (h : s.Tallied A R W O) (hsound : s.Sound) (hopen : s.isClosed = false)
    (hheld : s.held = none) (hroom : (s.notes.length : Int) < s.capacity) (reply : Reply) :
    (s.put (.note reply)).Tallied (A ++ [reply]) R W O := by
  have hnotes : (s.put (.note reply)).notes = s.notes ++ [reply] := hsound.notes_put hopen
  have heq : s.put (.note reply) = _ := put_eq _ _
  constructor
  · rw [heq]
    exact h.withheld
  · intro _
    rw [hnotes, heq, List.length_append]
    exact hroom
  · rw [heq]
    exact h.holds
  · rw [hnotes, heq]
    intro hkeeps
    refine ⟨[], ?_, fun _ => ?_⟩
    · rw [h.kept hopen hheld hkeeps, List.append_nil, List.append_assoc]
    · change [] = s.held.toList
      rw [hheld]
      rfl
  · rw [heq]
    exact h.lagged
  · rw [hnotes, heq, ← List.append_assoc]
    intro hdrop
    obtain ⟨hsub, hlen⟩ := h.thinned hdrop
    refine ⟨hsub.append (List.Sublist.refl _), ?_⟩
    change (A ++ [reply]).length = R.length + W.length + (s.notes ++ [reply]).length + s.dropped
    rw [List.length_append, List.length_append, hlen, List.length_singleton]
    omega

/-- A notification that comes when as many wait as may closes a stream whose policy is to lag. -/
theorem Tallied.lag (h : s.Tallied A R W O) (hsound : s.Sound) (hopen : s.isClosed = false)
    (hheld : s.held = none) (hlag : s.overflow = .lag)
    (hfull : s.capacity ≤ (s.notes.length : Int)) :
    (s.close (some (.lagged s.id s.capacity))).Tallied (A ++ [reply]) R W
      (O ∨ (s.notes.length : Int) = s.capacity) := by
  have hnotes : (s.close (some (.lagged s.id s.capacity))).notes = s.notes :=
    notes_close hsound.queue
  have heq : s.close (some (.lagged s.id s.capacity)) = _ := close_of_open hopen
  constructor
  · rw [heq]
    exact h.withheld
  · rw [hnotes, heq]
    exact h.fits
  · rw [heq]
    exact h.holds
  · rw [hnotes, heq]
    intro hkeeps
    refine ⟨[reply], ?_, fun hopen => Bool.noConfusion hopen⟩
    rw [h.kept hopen hheld hkeeps]
  · rw [heq]
    intro _ hpos
    exact ⟨fun _ => .inr (Int.le_antisymm (h.fits hpos) hfull), fun _ => rfl⟩
  · rw [heq]
    exact fun hdrop => absurd (hlag.symm.trans hdrop) nofun

/-- A notification that comes to an open stream is put, dropped or held back, or closes the
stream, and is counted. -/
theorem Tallied.arrive (h : s.Tallied A R W O) (hsound : s.Sound) (hopen : s.isClosed = false)
    (hheld : s.held = none) :
    (s.accept reply).Tallied (A ++ [reply]) R W (O ∨ (s.notes.length : Int) = s.capacity) := by
  have hlength := hsound.length_queue hopen
  rw [accept]
  split
  · next hfull =>
    rw [isFull, decide_eq_true_iff, hlength] at hfull
    split
    · next hdrop =>
      have hlag : s.overflow ≠ .lag := by
        rw [hdrop]
        decide
      refine ⟨h.withheld, h.fits, h.holds, fun hkeeps => absurd hdrop hkeeps,
        fun heq => absurd heq hlag, fun _ => ?_⟩
      obtain ⟨hsub, hlen⟩ := h.thinned hdrop
      refine ⟨hsub.trans (List.sublist_append_left _ _), ?_⟩
      rw [List.length_append, hlen]
      rfl
    · next hlag => exact h.lag hsound hopen hheld hlag hfull
    · next hblock =>
      have hlag : s.overflow ≠ .lag := by
        rw [hblock]
        decide
      have hdrop : s.overflow ≠ .drop := by
        rw [hblock]
        decide
      refine ⟨h.withheld, h.fits, fun _ => hblock, fun hkeeps => ⟨[reply], ?_, fun _ => rfl⟩,
        fun heq => absurd heq hlag, fun heq => absurd heq hdrop⟩
      change A ++ [reply] = R ++ W ++ s.notes ++ [reply]
      rw [h.kept hopen hheld hkeeps]
  · next hroom =>
    rw [isFull, decide_eq_true_iff, hlength, Int.not_le] at hroom
    rw [or_iff_left_of_imp fun heq => absurd heq (Int.ne_of_lt hroom)]
    exact h.put hsound hopen hheld hroom reply

/-- A notification that was held back is counted already; it is put, or lost with the end of the
stream. -/
theorem Tallied.retry (h : s.Tallied A R W O) (hsound : s.Sound) : s.proceed.Tallied A R W O := by
  rw [proceed]
  split
  · exact h
  · next reply hheld =>
    have hblock : s.overflow = .block := h.holds (by rw [hheld]; rfl)
    have hkeeps : s.overflow ≠ .drop := by
      rw [hblock]
      decide
    obtain ⟨lost, hlost, hhand⟩ := h.inOrder hkeeps
    split
    · next hclosed =>
      -- The stream has ended meanwhile, and what was held back stays lost.
      refine ⟨h.withheld, h.fits, fun _ => hblock, fun _ => ⟨lost, hlost, fun hopen => ?_⟩,
        h.lagged, h.thinned⟩
      cases hclosed.symm.trans hopen
    · next hopen =>
      have hopen : s.isClosed = false := Bool.not_eq_true _ ▸ hopen
      split
      · exact h.sameBut rfl rfl
      · next hroom =>
        rw [isFull, decide_eq_true_iff, hsound.length_queue hopen, Int.not_le] at hroom
        have hfree : Tallied (R ++ W ++ s.notes) R W O { s with held := none } :=
          ⟨h.withheld, h.fits, fun _ => hblock,
            fun _ => ⟨[], (List.append_nil _).symm, fun _ => rfl⟩,
            h.lagged, fun hdrop => absurd hdrop hkeeps⟩
        have hput := hfree.put ⟨hsound.queue, hsound.quiet, hsound.line⟩ hopen rfl hroom reply
        rwa [hlost, hhand hopen, hheld]

theorem Tallied.silence (h : s.Tallied A R W O) (hsound : s.Sound) : s.silence.Tallied A R W O :=
  Tallied.close (s := { s with quiet := true })
    ⟨nofun, h.fits, h.holds, h.inOrder, h.lagged, h.thinned⟩ hsound.queue nofun

theorem Tallied.receive (h : s.Tallied A R W O) (hsound : s.Sound) :
    (s.receive task).1.Tallied A (R ++ (s.receive task).2.replies) W O := by
  rw [Stream.receive]
  split
  · have hnone : R ++ Received.ended.replies = R := List.append_nil R
    rwa [hnone]
  · next hquiet =>
    have hlook := h.look hsound.queue task
    rwa [if_neg hquiet, List.append_nil] at hlook

theorem Tallied.resume (h : s.Tallied A R W O) (hsound : s.Sound) :
    (s.resume task).1.Tallied A (R ++ (s.resume task).2.replies) (W ++ s.withheldFrom task) O := by
  rw [Stream.resume, withheldFrom]
  split
  · next hcalled =>
    have hleft : Tallied A R W O { s with called := s.called.erase task } := h.sameBut rfl rfl
    have hlook := hleft.look hsound.queue task
    rwa [hcalled, Bool.and_true]
  · next hcalled =>
    rw [Bool.eq_false_iff.mpr hcalled, Bool.and_false]
    have hnone : R ++ Received.waits.replies = R := List.append_nil R
    rw [hnone]
    rwa [if_neg Bool.false_ne_true, List.append_nil]

/-- **Every change keeps the account of a stream.** -/
theorem Tallied.apply {change : Change} (h : s.Tallied A R W O) (hsound : s.Sound)
    (hdue : change.Due s) :
    (change.apply s).Tallied (A ++ change.arrived) (R ++ change.returned s)
      (W ++ change.withheld s) (O ∨ change.Overruns s) := by
  cases change <;>
    simp only [Change.arrived, Change.returned, Change.withheld, Change.Overruns, List.append_nil,
      or_false]
  case none => exact h
  case arrive reply => exact h.arrive hsound hdue.1 hdue.2
  case retry => exact h.retry hsound
  case close how => exact h.close hsound.queue hdue
  case silence => exact h.silence hsound
  case receive task => exact h.receive hsound
  case resume task => exact h.resume hsound
  case leave task => exact h.sameBut sameBut_leave (notes_congr queue_leave)
  case watch task => exact h.sameBut sameBut_watch (notes_congr queue_watch)

end Steps

/-! ## The end of a stream -/

section Ends

/-- What consumers get that come one after the other. -/
def receives : List Nat → Stream → List Received
  | [], _ => []
  | task :: tasks, s => (s.receive task).2 :: receives tasks (s.receive task).1

/-- A consumer is told of the fault of a stream only when nothing waits any more. -/
theorem notes_of_failed {fault : Fault}
    (hqueue : s.queue = s.notes.map .note ++ if s.isClosed then [.ending] else [])
    (h : (s.look task).2 = .failed fault) : s.notes = [] := by
  rcases look_cases task hqueue with ⟨hnotes, -, -⟩ | ⟨reply, rest, -, heq⟩ | ⟨hnotes, -, -⟩
  · exact hnotes
  · rw [heq] at h
    dsimp only at h
    split at h <;> cases h
  · exact hnotes

theorem Sound.notes_of_receive {fault : Fault} (h : s.Sound)
    (hfailed : (s.receive task).2 = .failed fault) : s.notes = [] := by
  rw [Stream.receive] at hfailed
  split at hfailed
  · cases hfailed
  · exact notes_of_failed h.queue hfailed

theorem Sound.notes_of_resume {fault : Fault} (h : s.Sound)
    (hfailed : (s.resume task).2 = .failed fault) : s.notes = [] := by
  rw [Stream.resume] at hfailed
  split at hfailed
  · exact notes_of_failed (s := { s with called := s.called.erase task }) h.queue hfailed
  · cases hfailed

/-- **Who comes to a stream that failed gets what waits, in order, and then the fault.** -/
theorem receives_of_failed {fault : Fault} (h : s.Sound) (hfault : s.outcome = some (some fault))
    (tasks : List Nat) : s.receives tasks =
      (s.notes.map Received.item ++ List.replicate tasks.length (Received.failed fault)).take
        tasks.length := by
  induction tasks generalizing s with
  | nil => rfl
  | cons task tasks ih =>
    have hloud : s.quiet = false := by
      cases hquiet : s.quiet with
      | false => rfl
      | true => cases hfault.symm.trans (h.quiet hquiet)
    have hlook : s.receive task = s.look task := by
      rw [receive, hloud]
      rfl
    have hnext : (s.receive task).1.Sound := h.receive
    have hrest := ih hnext (sameBut_receive.outcome.trans hfault)
    rw [receives, hrest, hlook]
    rcases look_cases task h.queue with
      ⟨-, hopen, -⟩ | ⟨reply, rest, hnotes, heq⟩ | ⟨hnotes, -, heq⟩
    · cases hfault.symm.trans (isClosed_eq_false.mp hopen)
    · have hleft : (s.look task).1.notes = rest := by
        rw [heq]
        exact notes_of_queue rfl
      rw [hleft, heq, hnotes, hloud]
      have hlen : tasks.length ≤ (rest.map Received.item ++
          List.replicate tasks.length (Received.failed fault)).length := by
        rw [List.length_append, List.length_replicate]
        exact Nat.le_add_left _ _
      rw [List.map_cons, List.length_cons, List.cons_append, List.take_succ_cons,
        List.replicate_succ', ← List.append_assoc, List.take_append_of_le_length hlen]
      rfl
    · have hleft : (s.look task).1.notes = s.notes := by
        rw [heq]
        rfl
      rw [hleft, heq, hnotes, hfault]
      rfl

end Ends

end Stream

end LedgerClient.Channel
