import LedgerClient.Proofs.Channel.Delivery

/-!
# What is held back for want of room

Where the policy of a stream is to block, a notification that finds no room is held back, and its
producer waits until it is told that there may be room. The word is a flag: the producer takes it
down before it waits, and whoever takes an item or closes the stream puts it up. A flag that is
taken down once too often would leave the producer waiting for ever, and the producer is the reader
of the channel, so no call would be answered any more.

The flag is down only while the stream is open and full. This is kept by every change of the
stream, since a producer that waits lets nothing else come: the queue only gets shorter while the
flag is up.

## Main definitions

* `Channel.Stream.Undergoes`: a run of changes of one stream, each due when it happens
* `Channel.Stream.Heeds`: the flag is down only for a reason that still holds

## Main results

* `Channel.Stream.Heeds.apply`, `Channel.Stream.Undergoes.heeds`: every change keeps it so
* `Channel.Stream.blocked_producer_wakes`: the producer is told, and then puts what it holds
  just once
-/

namespace LedgerClient.Channel

open Rpc (Reply)

namespace Stream

variable {s t first : Stream} {task : Nat} {reply : Reply} {how : Option Fault}
  {A R W : List Reply} {O : Prop}

/-- While a notification is held back, the flag is down just when the stream is open and full. -/
def Heeds (s : Stream) : Prop :=
  s.held.isSome = true → (s.space = false ↔ s.capacity ≤ s.notes.length ∧ s.isClosed = false)

/-! ## The producer goes on -/

section Proceeding

theorem proceed_of_isClosed (hheld : s.held = some reply) (hclosed : s.isClosed = true) :
    s.proceed = { s with held := none } := by
  rw [proceed, hheld]
  exact if_pos hclosed

theorem proceed_of_full (hheld : s.held = some reply) (hsound : s.Sound)
    (hopen : s.isClosed = false) (hfull : s.capacity ≤ s.notes.length) :
    s.proceed = { s with space := false } := by
  have hisFull : s.isFull = true := by
    rw [isFull, hsound.length_queue hopen]
    exact decide_eq_true hfull
  rw [proceed, hheld]
  dsimp only
  rw [hopen, if_neg Bool.false_ne_true, if_pos hisFull]

theorem proceed_of_room (hheld : s.held = some reply) (hsound : s.Sound)
    (hopen : s.isClosed = false) (hroom : (s.notes.length : Int) < s.capacity) :
    s.proceed = { s with held := none }.put (.note reply) := by
  have hisFull : s.isFull = false := by
    rw [isFull, hsound.length_queue hopen]
    exact decide_eq_false (Int.not_le.mpr hroom)
  rw [proceed, hheld]
  dsimp only
  rw [hopen, hisFull]
  rfl

theorem held_put (item : Item) : (s.put item).held = s.held :=
  (sameBut_put item).held

/-- Unless the stream is open and full, the producer holds nothing back any more once it has gone
on. -/
theorem held_proceed (hsound : s.Sound)
    (hroom : ¬(s.capacity ≤ s.notes.length ∧ s.isClosed = false)) : s.proceed.held = none := by
  cases hheld : s.held with
  | none =>
    rw [proceed, hheld]
    exact hheld
  | some reply =>
    cases hclosed : s.isClosed with
    | true => rw [proceed_of_isClosed hheld hclosed]
    | false =>
      have hfree := Int.not_le.mp fun hfull => hroom ⟨hfull, hclosed⟩
      rw [proceed_of_room hheld hsound hclosed hfree, held_put]

end Proceeding

/-! ## The flag -/

section Flag

theorem Heeds.of_held (h : s.held = none) : s.Heeds := by
  intro hsome
  rw [h] at hsome
  cases hsome

/-- The flag is up, and there is a reason to go on. -/
theorem Heeds.of_space (hspace : s.space = true)
    (hreason : ¬(s.capacity ≤ s.notes.length ∧ s.isClosed = false)) : s.Heeds := by
  intro _
  rw [hspace]
  exact ⟨nofun, fun hfull => absurd hfull hreason⟩

/-- What changes neither the flag nor what waits changes nothing here. -/
theorem Heeds.sameBut (h : s.Heeds) (hsame : s.SameBut t) (hspace : t.space = s.space)
    (hnotes : t.notes = s.notes) : t.Heeds := by
  have hcapacity : t.capacity = s.capacity := congrArg Terms.capacity hsame.terms
  rw [Heeds, hsame.held, hsame.isClosed, hspace, hnotes, hcapacity]
  exact h

theorem space_leave : (s.leave task).space = s.space := by
  rw [leave]
  split
  · dsimp only
    split
    · rfl
    · rw [wake_eq]
  · rfl

theorem space_watch : (s.watch task).space = s.space := by
  rw [watch]
  split <;> rfl

/-- Whoever closes a stream puts the flag up. -/
theorem Heeds.close (h : s.Heeds) : (s.close how).Heeds := by
  cases hclosed : s.isClosed with
  | true => rwa [close_of_isClosed hclosed]
  | false =>
    refine .of_space ?_ fun hfull => ?_
    · rw [close_of_open hclosed]
    · exact Bool.false_ne_true (hfull.2.symm.trans isClosed_close)

/-- A notification that finds no room is held back, and the flag is taken down. -/
theorem Heeds.arrive (hsound : s.Sound) (hopen : s.isClosed = false) (hheld : s.held = none) :
    (s.accept reply).Heeds := by
  rw [accept]
  split
  · next hfull =>
    rw [isFull, decide_eq_true_iff, hsound.length_queue hopen] at hfull
    split
    · exact .of_held hheld
    · exact .of_held (held_close.trans hheld)
    · exact fun _ => ⟨fun _ => ⟨hfull, hopen⟩, fun _ => rfl⟩
  · exact .of_held ((held_put _).trans hheld)

/-- The producer takes the flag down again only where the stream is still open and full. -/
theorem Heeds.retry (hsound : s.Sound) : s.proceed.Heeds := by
  by_cases hfull : s.capacity ≤ s.notes.length ∧ s.isClosed = false
  · cases hheld : s.held with
    | none =>
      rw [proceed, hheld]
      exact .of_held hheld
    | some reply =>
      rw [proceed_of_full hheld hsound hfull.2 hfull.1]
      exact fun _ => ⟨fun _ => hfull, fun _ => rfl⟩
  · exact .of_held (held_proceed hsound hfull)

/-- A consumer that takes something puts the flag up, and leaves room behind. -/
theorem Heeds.look (h : s.Heeds)
    (hqueue : s.queue = s.notes.map .note ++ if s.isClosed then [.ending] else [])
    (hfits : (s.notes.length : Int) ≤ s.capacity) (task : Nat) : (s.look task).1.Heeds := by
  rcases look_cases task hqueue with
    ⟨-, -, heq⟩ | ⟨reply, rest, hnotes, heq⟩ | ⟨-, hclosed, heq⟩
  · rw [heq]
    exact h
  · have hleft : (s.look task).1.notes = rest := by
      rw [heq]
      exact notes_of_queue rfl
    rw [heq] at hleft ⊢
    refine .of_space rfl fun hfull => ?_
    have hfull : s.capacity ≤ _ := hfull.1
    rw [hleft] at hfull
    rw [hnotes, List.length_cons] at hfits
    omega
  · rw [heq]
    exact .of_space rfl fun hfull => Bool.false_ne_true (hfull.2.symm.trans hclosed)

/-- **Every change leaves the flag down only where the stream is open and full.** -/
theorem Heeds.apply {change : Change} (h : s.Heeds) (hsound : s.Sound)
    (hfits : (s.notes.length : Int) ≤ s.capacity) (hdue : change.Due s) :
    (change.apply s).Heeds := by
  cases change with
  | none => exact h
  | arrive reply => exact .arrive hsound hdue.1 hdue.2
  | retry => exact .retry hsound
  | close how => exact h.close
  | silence => exact Heeds.close (s := { s with quiet := true }) h
  | receive task =>
    change (s.receive task).1.Heeds
    rw [receive]
    split
    · exact h
    · exact h.look hsound.queue hfits task
  | resume task =>
    change (s.resume task).1.Heeds
    rw [resume]
    split
    · exact Heeds.look (s := { s with called := s.called.erase task }) h hsound.queue hfits task
    · exact h
  | leave task => exact h.sameBut sameBut_leave space_leave (notes_congr queue_leave)
  | watch task => exact h.sameBut sameBut_watch space_watch (notes_congr queue_watch)

/-- A consumer that finds something puts the flag up. -/
theorem space_look (hqueue : s.queue = s.notes.map .note ++ if s.isClosed then [.ending] else [])
    (hnotes : s.notes ≠ []) (task : Nat) : (s.look task).1.space = true := by
  rcases look_cases task hqueue with ⟨hnil, -, -⟩ | ⟨reply, rest, -, heq⟩ | ⟨hnil, -, -⟩
  · exact absurd hnil hnotes
  · rw [heq]
  · exact absurd hnil hnotes

/-- Where nothing waits, a consumer gets no notification. -/
theorem replies_look (hqueue : s.queue = s.notes.map .note ++ if s.isClosed then [.ending] else [])
    (hnotes : s.notes = []) (task : Nat) : (s.look task).2.replies = [] := by
  rcases look_cases task hqueue with ⟨-, -, heq⟩ | ⟨reply, rest, hcons, -⟩ | ⟨-, -, heq⟩
  · rw [heq]
    rfl
  · exact nomatch hnotes.symm.trans hcons
  · rw [heq]
    dsimp only
    split <;> rfl

end Flag

/-! ## What puts the flag up -/

section Word

namespace Change

/-- In a change a consumer takes a notification, whether it gets it or not. -/
def Takes (s : Stream) (change : Change) : Prop :=
  change.returned s ++ change.withheld s ≠ []

/-- What closes a stream from outside. -/
def Closes : Change → Prop
  | .close _ | .silence => True
  | _ => False

end Change

theorem space_of_takes {change : Change} (hsound : s.Sound) (htakes : change.Takes s) :
    (change.apply s).held = s.held ∧ (change.apply s).space = true := by
  cases change with
  | receive task =>
    refine ⟨sameBut_receive.held, ?_⟩
    have hreplies : (s.receive task).2.replies ++ [] ≠ [] := htakes
    change (s.receive task).1.space = true
    rw [receive] at hreplies ⊢
    split at hreplies
    · exact absurd rfl hreplies
    · next hquiet =>
      rw [if_neg hquiet]
      refine space_look hsound.queue (fun hnil => hreplies ?_) task
      rw [replies_look hsound.queue hnil, List.append_nil]
  | resume task =>
    refine ⟨sameBut_resume.held, ?_⟩
    have hreplies : (s.resume task).2.replies ++ s.withheldFrom task ≠ [] := htakes
    change (s.resume task).1.space = true
    rw [resume, withheldFrom] at hreplies
    rw [resume]
    by_cases hcalled : s.called.contains task = true
    · rw [if_pos hcalled] at hreplies ⊢
      refine space_look (s := { s with called := s.called.erase task }) hsound.queue
        (fun hnil => hreplies ?_) task
      have hnone := replies_look (s := { s with called := s.called.erase task }) hsound.queue
        hnil task
      have hnotes : s.notes = [] := hnil
      rw [hnone, hnotes]
      exact ite_self _
    · rw [if_neg hcalled, Bool.eq_false_iff.mpr hcalled, Bool.and_false] at hreplies
      exact absurd rfl hreplies
  | none | arrive | retry | close | silence | leave | watch => exact absurd rfl htakes

theorem Heeds.space_of_closes {change : Change} (h : (change.apply s).Heeds)
    (hcloses : change.Closes) (hheld : s.held.isSome = true) :
    (change.apply s).held = s.held ∧ (change.apply s).space = true := by
  have hshut : (change.apply s).held = s.held ∧ (change.apply s).isClosed = true := by
    cases change with
    | close how => exact ⟨held_close, isClosed_close⟩
    | silence => exact ⟨held_close, isClosed_close⟩
    | none | arrive | retry | receive | resume | leave | watch => exact hcloses.elim
  refine ⟨hshut.1, (Bool.not_eq_false _).mp fun hdown => ?_⟩
  have hopen := ((h (hshut.1 ▸ hheld)).mp hdown).2
  exact Bool.false_ne_true (hopen.symm.trans hshut.2)

end Word

/-! ## Runs -/

section Runs

/-- A change, and the stream before it. -/
structure Occurrence where
  before : Stream
  change : Change

/-- A stream undergoes changes, each of them due when it happens. -/
inductive Undergoes (first : Stream) : List Occurrence → Stream → Prop
  | start : Undergoes first [] first
  | apply {past : List Occurrence} {s : Stream} (change : Change) (hdue : change.Due s) :
    Undergoes first past s → Undergoes first (past ++ [⟨s, change⟩]) (change.apply s)

/-- The notifications that have come to a stream. -/
def arrivedIn (past : List Occurrence) : List Reply := past.flatMap (·.change.arrived)

/-- Those that consumers got. -/
def returnedIn (past : List Occurrence) : List Reply := past.flatMap fun o =>
  o.change.returned o.before

/-- Those that consumers took but did not get. -/
def withheldIn (past : List Occurrence) : List Reply := past.flatMap fun o =>
  o.change.withheld o.before

variable {past : List Occurrence}

theorem Undergoes.terms (h : Undergoes first past s) : s.terms = first.terms := by
  induction h with
  | start => rfl
  | apply change _ _ ih => exact (terms_apply change _).trans ih

/-- The account of a stream goes on from the one that it begins with. -/
theorem Undergoes.tallied (h : Undergoes first past s) (hsound : first.Sound)
    (htallied : first.Tallied A R W O) :
    s.Sound ∧ s.Tallied (A ++ arrivedIn past) (R ++ returnedIn past) (W ++ withheldIn past)
      (O ∨ ∃ o ∈ past, o.change.Overruns o.before) := by
  induction h with
  | start =>
    refine ⟨hsound, ?_⟩
    simpa [arrivedIn, returnedIn, withheldIn] using htallied
  | @apply past s change hdue _ ih =>
    obtain ⟨hsound, htallied⟩ := ih
    refine ⟨hsound.apply hdue, ?_⟩
    have hover : (O ∨ ∃ o ∈ past ++ [⟨s, change⟩], o.change.Overruns o.before) =
        ((O ∨ ∃ o ∈ past, o.change.Overruns o.before) ∨ change.Overruns s) := by
      simp [or_and_right, exists_or, or_assoc]
    have hkept := htallied.apply hsound hdue
    simp only [arrivedIn, returnedIn, withheldIn, List.flatMap_append, List.flatMap_singleton,
      ← List.append_assoc] at hkept ⊢
    rwa [hover]

/-- **The flag is down only where the stream is open and full**, throughout a run. -/
theorem Undergoes.heeds (h : Undergoes first past s) (hsound : first.Sound)
    (htallied : first.Tallied A R W O) (hpos : 0 ≤ first.capacity) (hheeds : first.Heeds) :
    s.Heeds := by
  induction h with
  | start => exact hheeds
  | @apply past s change hdue hbefore ih =>
    obtain ⟨hsound, htallied⟩ := hbefore.tallied hsound htallied
    have hcapacity : s.capacity = first.capacity := congrArg Terms.capacity hbefore.terms
    exact ih.apply hsound (htallied.fits (hcapacity ▸ hpos)) hdue

/-- A closed stream stays closed, and nothing comes to it. -/
theorem Undergoes.arrivedIn_of_isClosed (h : Undergoes first past s)
    (hclosed : first.isClosed = true) : s.isClosed = true ∧ arrivedIn past = [] := by
  induction h with
  | start => exact ⟨hclosed, rfl⟩
  | @apply past s change hdue _ ih =>
    obtain ⟨hshut, hnone⟩ := ih
    obtain ⟨o, ho⟩ := Option.isSome_iff_exists.mp hshut
    refine ⟨?_, ?_⟩
    · rw [isClosed, outcome_apply change ho]
      rfl
    · rw [arrivedIn, List.flatMap_append, ← arrivedIn, hnone, List.flatMap_singleton]
      cases change with
      | arrive reply => cases hdue.1.symm.trans hshut
      | _ => rfl

/-- A closed stream that blocks may be taken to have been brought just what was put into it: what
it held back is lost with its end. -/
theorem Tallied.restart (h : s.Tallied A R W O) (hclosed : s.isClosed = true)
    (hblock : s.overflow = .block) : s.Tallied (R ++ W ++ s.notes) R W O := by
  have hlag : s.overflow ≠ .lag := by
    rw [hblock]
    decide
  have hdrop : s.overflow ≠ .drop := by
    rw [hblock]
    decide
  refine ⟨h.withheld, h.fits, h.holds, fun _ => ⟨[], ?_, fun hopen => ?_⟩,
    fun heq => absurd heq hlag, fun heq => absurd heq hdrop⟩
  · rw [List.append_nil]
  · cases hclosed.symm.trans hopen

/-- **A producer that waits for room is told of it, and puts what it holds just once.** Let
anything happen in any order to a new stream whose policy is to block. While a notification is held
back, the flag is down just when as many wait as may and the stream is open, so a consumer that
takes one and whoever closes the stream put it up. A producer that goes on gives up what it holds
if the stream is closed, puts it behind what waits if there is room, and goes on waiting otherwise.
As long as the stream is open, what has come is what consumers got, what waits, and what is held
back, in order and each of them once; nothing is put into a stream that has closed. -/
theorem blocked_producer_wakes (terms : Terms) (hblock : terms.overflow = .block)
    (hcapacity : 1 ≤ terms.capacity) (past : List Occurrence) (s : Stream)
    (h : Undergoes terms.stream past s) :
    let A := arrivedIn past
    let R := returnedIn past
    let W := withheldIn past
    (s.held.isSome = true →
      (s.space = false ↔ terms.capacity ≤ s.notes.length ∧ s.isClosed = false)) ∧
    (s.held.isSome = true → ∀ change : Change, change.Due s → change.Takes s ∨ change.Closes →
      (change.apply s).held = s.held ∧ (change.apply s).space = true) ∧
    (∀ reply, s.held = some reply →
      (s.isClosed = true → s.proceed = { s with held := none }) ∧
      (s.isClosed = false → (s.notes.length : Int) < terms.capacity →
        s.proceed.held = none ∧ s.proceed.notes = s.notes ++ [reply]) ∧
      (s.isClosed = false → terms.capacity ≤ s.notes.length →
        s.proceed = { s with space := false })) ∧
    (R ++ W ++ s.notes) <+: A ∧
    (s.isClosed = false → A = R ++ s.notes ++ s.held.toList) ∧
    (s.isClosed = true → ∀ more t, Undergoes s more t →
      ((R ++ returnedIn more) ++ (W ++ withheldIn more) ++ t.notes) <+: (R ++ W ++ s.notes)) := by
  intro A R W
  have hpos : 0 ≤ terms.capacity := Int.le_trans (by decide) hcapacity
  obtain ⟨hnew, hempty⟩ := tallied_stream terms
  obtain ⟨hsound, htallied⟩ := h.tallied hnew hempty
  simp only [List.nil_append] at htallied
  have hheeds : s.Heeds := h.heeds hnew hempty hpos (.of_held rfl)
  have hroom : s.capacity = terms.capacity := congrArg Terms.capacity h.terms
  have hpolicy : s.overflow = .block := (congrArg Terms.overflow h.terms).trans hblock
  have hkeeps : s.overflow ≠ .drop := by
    rw [hpolicy]
    decide
  have hfits := htallied.fits (hroom ▸ hpos)
  obtain ⟨lost, heq, hlost⟩ := htallied.inOrder hkeeps
  refine ⟨fun hheld => hroom ▸ hheeds hheld, fun hheld change hdue hword => ?_,
    fun reply hheld => ⟨proceed_of_isClosed hheld, fun hopen hfree => ?_, fun hopen hfull => ?_⟩,
    ⟨lost, heq.symm⟩, fun hopen => ?_, fun hclosed more t hmore => ?_⟩
  · rcases hword with htakes | hcloses
    · exact space_of_takes hsound htakes
    · exact (hheeds.apply hsound hfits hdue).space_of_closes hcloses hheld
  · rw [proceed_of_room hheld hsound hopen (hroom ▸ hfree)]
    have hrest : Sound { s with held := none } := ⟨hsound.queue, hsound.quiet, hsound.line⟩
    exact ⟨held_put _, hrest.notes_put hopen⟩
  · exact proceed_of_full hheld hsound hopen (hroom ▸ hfull)
  · -- An owner who takes nothing more has closed the stream, so nothing was withheld.
    have hloud : s.quiet = false := by
      cases hquiet : s.quiet with
      | false => rfl
      | true =>
        rw [isClosed, hsound.quiet hquiet] at hopen
        cases hopen
    have hall : A = R ++ W ++ s.notes ++ lost := heq
    have hnone : W = [] := htallied.withheld hloud
    rw [hall, hlost hopen, hnone, List.append_nil]
  · obtain ⟨-, hafter⟩ := hmore.tallied hsound (htallied.restart hclosed hpolicy)
    rw [(hmore.arrivedIn_of_isClosed hclosed).2, List.append_nil] at hafter
    have hterms : t.overflow = s.overflow := congrArg Terms.overflow hmore.terms
    obtain ⟨lost, hput, -⟩ := hafter.inOrder (hterms ▸ hkeeps)
    exact ⟨lost, hput.symm⟩

/-- Of two notifications that come to a stream of one place the second is held back; a consumer
takes the first, and the producer puts the second. -/
theorem blocked_producer_wakes_one_place :
    let terms : Terms := ⟨7, .root, "rootUnsubscribe", 1, .block⟩
    let held := (Change.arrive (.plain (.int 6))).apply
      ((Change.arrive (.plain (.int 5))).apply terms.stream)
    let taken := (Change.receive 0).apply held
    terms.overflow = .block ∧ 1 ≤ terms.capacity ∧
    held.held.isSome = true ∧ held.space = false ∧
    taken.held = held.held ∧ taken.space = true ∧
    taken.proceed.held = none ∧ taken.proceed.notes = [.plain (.int 6)] := by
  intro terms held taken
  have hfirst : Undergoes terms.stream _ _ :=
    Undergoes.start.apply (.arrive (.plain (.int 5))) ⟨rfl, rfl⟩
  have hheld : Undergoes terms.stream _ held :=
    hfirst.apply (.arrive (.plain (.int 6))) ⟨rfl, rfl⟩
  have htaken : Undergoes terms.stream _ taken := hheld.apply (.receive 0) trivial
  obtain ⟨hflag, hword, -⟩ :=
    blocked_producer_wakes terms rfl (by decide) _ held hheld
  obtain ⟨-, -, hgoes, -⟩ :=
    blocked_producer_wakes terms rfl (by decide) _ taken htaken
  obtain ⟨hkept, hup⟩ := hword rfl (.receive 0) trivial (.inl (List.cons_ne_nil _ _))
  obtain ⟨hfree, hnotes⟩ := (hgoes _ rfl).2.1 rfl (by decide)
  exact ⟨rfl, by decide, rfl, (hflag rfl).mpr ⟨by decide, rfl⟩, hkept, hup, hfree, hnotes⟩

end Runs

end Stream

end LedgerClient.Channel
