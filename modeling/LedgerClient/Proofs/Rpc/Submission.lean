import LedgerClient.Proofs.Blob
import LedgerClient.Proofs.Channel.Requests
import LedgerClient.Proofs.Http.Call
import LedgerClient.Rpc.Submission

/-!
# The text and the encoding that the settings name

A request that submits a transaction says twice how its text is to be read: the text is written in
an encoding, and the settings name one. Both come from the name that the caller gives, by two ways
that know different names: all encodings of blobs can be named, and only two are written. The
request is made only where both ways succeed, and then they have come to the same encoding, since a
name belongs to one alone.

What the caller holds is never changed, however far the request gets. Computations on what a caller
holds that keep it are closed under sequencing, and each step of the request is one.

## Main definitions

* `Rpc.Use.Keeps`: a computation keeps what the caller holds
* `Rpc.Submission.Denotes`: the bytes that a submission stands for
* `Rpc.Submittable`: what can be submitted in the encoding of a name
* `Rpc.Agrees`: settings name the encoding of a text, and are otherwise those of the caller
* `Rpc.Submits`: the parameters of a request that submits what a caller holds

## Main results

* `Rpc.keeps_submit`: what the caller holds is kept
* `Rpc.submit_eq_ok`: the calls that submit what a caller holds
* `Http.Client.attempt_submitting`, `Channel.attempt_submitting`: what is sent on either connection
* `Rpc.submission_in_named_encoding`: what is sent is in the encoding that its settings name
-/

namespace LedgerClient

open Fault (bind_eq_ok exceptRun_bind)
open Json (Value)

namespace Rpc

/-! ## Computations on what a caller holds -/

namespace Use

variable {α β : Type} {u : Use α} {f : α → Use β}

/-- The computation keeps what the caller holds, whether it fails or not. -/
def Keeps (u : Use α) : Prop :=
  ∀ held, (ExceptT.run u held).2 = held

theorem keeps_pure (x : α) : Keeps (pure x) := fun _ => rfl

theorem keeps_get : Keeps (get : Use Holdings) := fun _ => rfl

/-- What does not look at what the caller holds keeps it. -/
theorem keeps_lift (x : Except Fault α) : Keeps (liftM x) := fun _ => rfl

theorem Keeps.bind (hu : Keeps u) (hf : ∀ x, Keeps (f x)) : Keeps (u >>= f) := by
  intro held
  have hkept := hu held
  rw [exceptRun_bind]
  rcases hrun : ExceptT.run u held with ⟨fault | x, held'⟩
  · rw [hrun] at hkept
    exact hkept
  · rw [hrun] at hkept
    exact (hf x held').trans hkept

/-- What comes of a computation in two parts, the first of which keeps what the caller holds. -/
theorem fst_bind (hu : Keeps u) (held : Holdings) :
    (ExceptT.run (u >>= f) held).1 =
      (ExceptT.run u held).1 >>= fun x => (ExceptT.run (f x) held).1 := by
  have hkept := hu held
  rw [exceptRun_bind]
  rcases hrun : ExceptT.run u held with ⟨fault | x, held'⟩
  · rfl
  · rw [hrun] at hkept
    obtain rfl : held' = held := hkept
    rfl

end Use

/-! ## Settings -/

section Settings

variable {settings settings' : Settings} {name wire : String} {setting : Setting}

theorem Settings.replace_eq_ok :
    settings.replace name setting = .ok settings' ↔
      settings.knows name = true ∧ settings.set name (some setting) = settings' := by
  unfold replace
  split
  · next hknows =>
    rw [and_iff_right hknows]
    change Except.ok _ = Except.ok _ ↔ _
    rw [Except.ok.injEq]
  · next hnot => exact iff_of_false nofun fun h => hnot h.1

/-- The member of a name on the wire is the last of those that have it. -/
theorem Settings.member?_toJson (settings : Settings) (wire : String) :
    settings.toJson.member? wire =
      ((settings.form.fields.filterMap fun field =>
        ((settings.get? field.1).map fun setting =>
          (Camel.ofWords field.1, setting.toJson)).filter (·.1 == wire)).getLast?).map (·.2) := by
  rw [← List.filter_filterMap, ← List.head?_reverse, ← List.filter_reverse, List.head?_filter]
  rfl

theorem Settings.get?_set_self : (settings.set name (some setting)).get? name = some setting :=
  if_pos rfl

/-- A setting is found on the wire as it is set, if no other has its name there. -/
theorem Settings.member?_toJson_set (hknows : settings.knows name = true)
    (hname : ∀ field ∈ settings.form.fields, Camel.ofWords field.1 = wire ↔ field.1 = name) :
    (settings.set name (some setting)).toJson.member? wire = some setting.toJson := by
  rw [member?_toJson]
  generalize hkept : List.filterMap _ _ = kept
  have hall : ∀ member ∈ kept, member = (wire, setting.toJson) := by
    intro member hmember
    rw [← hkept] at hmember
    obtain ⟨field, hfield, hfound⟩ := List.mem_filterMap.mp hmember
    obtain ⟨hfound, hwire⟩ := Option.filter_eq_some_iff.mp hfound
    obtain ⟨found, hset, rfl⟩ := Option.map_eq_some_iff.mp hfound
    have hwire : Camel.ofWords field.1 = wire := eq_of_beq hwire
    rw [(hname field hfield).mp hwire, get?_set_self, Option.some.injEq] at hset
    rw [hwire, hset]
  have hmember : (wire, setting.toJson) ∈ kept := by
    obtain ⟨field, hfield, hthis⟩ := List.any_eq_true.mp hknows
    have hthis : field.1 = name := eq_of_beq hthis
    rw [← hkept]
    refine List.mem_filterMap.mpr ⟨field, hfield, ?_⟩
    rw [(hname field hfield).mpr hthis, hthis, get?_set_self]
    exact Option.filter_some_pos (beq_self_eq_true wire)
  rw [List.getLast?_eq_some_getLast (List.ne_nil_of_mem hmember), hall _ (List.getLast_mem _)]
  rfl

/-- The others are found as they were. -/
theorem Settings.member?_toJson_set_of_ne (h : Camel.ofWords name ≠ wire) :
    (settings.set name (some setting)).toJson.member? wire = settings.toJson.member? wire := by
  have hnone (set : Option Setting) : (set.map fun setting =>
      (Camel.ofWords name, setting.toJson)).filter (·.1 == wire) = none := by
    rw [Option.filter_eq_none_iff]
    intro member hmember
    obtain ⟨setting, -, rfl⟩ := Option.map_eq_some_iff.mp hmember
    exact h ∘ eq_of_beq
  rw [member?_toJson, member?_toJson]
  congr 2
  apply List.filterMap_congr
  rintro ⟨other, kind⟩ -
  change ((if other = name then some setting else settings.get? other).map _).filter _ = _
  split
  · next heq =>
    subst heq
    exact (hnone _).trans (hnone _).symm
  · rfl

end Settings

/-! ## The encoding by both ways -/

section Encodings

variable {encoding : String} {bytes : Bytes} {declared : Encoding} {text : String}

theorem Filter.readEncoding_eq_ok :
    readEncoding (.str encoding) = .ok declared ↔ declared.name = encoding := by
  rw [← Encoding.ofName?_eq_some]
  unfold readEncoding
  dsimp only
  cases Encoding.ofName? encoding with
  | none => exact iff_of_false nofun nofun
  | some other =>
    change Except.ok _ = Except.ok _ ↔ _
    rw [Except.ok.injEq, Option.some.injEq]

/-- Of the encodings that can be named, those are written that keep their name in writing. -/
theorem wireText_eq_ok : wireText bytes declared.name = .ok text ↔
    declared.written = declared ∧ declared.payload bytes = text := by
  have hok (text' : String) :
      Except.ok text' = (.ok text : Except Fault String) ↔ text' = text := by
    rw [Except.ok.injEq]
  cases declared with
  | base58 => exact (hok _).trans (and_iff_right rfl).symm
  | base64 => exact (hok _).trans (and_iff_right rfl).symm
  | compressed => exact iff_of_false nofun nofun
  | parsed => exact iff_of_false nofun nofun

end Encodings

/-! ## The call -/

section Submitting

variable {purpose : Purpose} {encoding : String} {held : Holdings} {call : Call Reply}
  {submission : Submission} {bytes : Bytes}

/-- A submission stands for the bytes of its transaction, or for those that it is. -/
def Submission.Denotes : Submission → Bytes → Prop
  | .transaction t, bytes => t.bytes = .ok bytes
  | .bytes bs, bytes => bs = bytes

theorem Submission.toBytes_eq_ok : submission.toBytes = .ok bytes ↔ submission.Denotes bytes := by
  cases submission with
  | transaction t => exact Iff.rfl
  | bytes bs =>
    change Except.ok bs = .ok bytes ↔ bs = bytes
    rw [Except.ok.injEq]

/-- **What the caller holds is kept**, whether there is a call or not. -/
theorem keeps_submit (purpose : Purpose) (encoding : String) :
    Use.Keeps (submit purpose encoding) := by
  unfold submit
  refine Use.keeps_get.bind fun held => ?_
  refine (Use.keeps_lift _).bind fun bytes => ?_
  refine (Use.keeps_lift _).bind fun named => ?_
  refine (Use.keeps_lift _).bind fun settings => ?_
  refine (Use.keeps_lift _).bind fun text => ?_
  exact Use.keeps_pure _

theorem fst_submit (purpose : Purpose) (encoding : String) (held : Holdings) :
    (ExceptT.run (submit purpose encoding) held).1 = do
      let bytes ← held.submission.toBytes
      let named ← Filter.readEncoding (.str encoding)
      let settings ← (held.settingsFor purpose).replace "encoding" (.encoding named)
      let text ← wireText bytes encoding
      return ⟨purpose.method, [.plain (.str text), .settings settings],
        fun text host => purpose.shape.decode text host⟩ := by
  unfold submit
  rw [Use.fst_bind Use.keeps_get]
  simp only [Use.fst_bind (Use.keeps_lift _)]
  rfl

/-- **The calls that submit what a caller holds**: there is an encoding of the name that is written
under its own name, and both the text and the settings are of it. -/
theorem submit_eq_ok :
    (ExceptT.run (submit purpose encoding) held).1 = .ok call ↔
      ∃ bytes declared, held.submission.Denotes bytes ∧ declared.name = encoding ∧
        declared.written = declared ∧ (held.settingsFor purpose).knows "encoding" = true ∧
        ⟨purpose.method, [.plain (.str (declared.payload bytes)),
          .settings ((held.settingsFor purpose).set "encoding" (some (.encoding declared)))],
          fun text host => purpose.shape.decode text host⟩ = call := by
  rw [fst_submit]
  simp only [bind_eq_ok, Filter.readEncoding_eq_ok, Settings.replace_eq_ok,
    Submission.toBytes_eq_ok]
  constructor
  · -- The name is that of one encoding, so the text is of the encoding that the settings name.
    rintro ⟨bytes, hbytes, declared, rfl, _, ⟨hknows, rfl⟩, _, htext, hcall⟩
    obtain ⟨hwritten, rfl⟩ := wireText_eq_ok.mp htext
    exact ⟨bytes, declared, hbytes, rfl, hwritten, hknows, Except.ok.inj hcall⟩
  · rintro ⟨bytes, declared, hbytes, rfl, hwritten, hknows, rfl⟩
    have htext : wireText bytes declared.name = .ok (declared.payload bytes) :=
      wireText_eq_ok.mpr ⟨hwritten, rfl⟩
    exact ⟨bytes, hbytes, declared, rfl, _, ⟨hknows, rfl⟩, _, htext, rfl⟩

/-- What a caller holds can be submitted in the encoding of a name: it stands for bytes, the name is
one of two, and the settings can name an encoding. -/
def Submittable (purpose : Purpose) (encoding : String) (held : Holdings) : Prop :=
  (∃ bytes, held.submission.Denotes bytes) ∧
  (encoding = "base58" ∨ encoding = "base64") ∧
  (held.settingsFor purpose).knows "encoding" = true

/-- There is a call for just what can be submitted. -/
theorem exists_submit_eq_ok :
    (∃ call, (ExceptT.run (submit purpose encoding) held).1 = .ok call) ↔
      Submittable purpose encoding held := by
  simp only [submit_eq_ok]
  constructor
  · rintro ⟨_, bytes, declared, hbytes, rfl, hwritten, hknows, -⟩
    refine ⟨⟨bytes, hbytes⟩, ?_, hknows⟩
    rcases Encoding.written_eq_self.mp hwritten with rfl | rfl
    · exact .inl rfl
    · exact .inr rfl
  · rintro ⟨⟨bytes, hbytes⟩, rfl | rfl, hknows⟩
    · exact ⟨_, bytes, .base58, hbytes, rfl, rfl, hknows, rfl⟩
    · exact ⟨_, bytes, .base64, hbytes, rfl, rfl, hknows, rfl⟩

/-- A name that settings may have is refused if no text is written under it. -/
example : (ExceptT.run (submit .send "base64+zstd") ⟨.bytes [1, 2, 3], none⟩).1 =
    .error (.invalid (.wireEncoding (.str "base64+zstd"))) := rfl

end Submitting

/-! ## Agreement -/

section Agreement

/-- The settings of a request name the encoding of its text, and are otherwise those of the
caller. -/
structure Agrees (purpose : Purpose) (settings : Settings) (encoding : String) (bytes : Bytes)
    (text : String) (settings' : Settings) : Prop where
  /-- The encoding is the one that was asked for, and the text is read back in it. -/
  named : ∃ declared, settings'.get? "encoding" = some (.encoding declared) ∧
    declared.name = encoding ∧ ∀ inflate?, declared.decodeWith inflate? text = .ok bytes
  /-- The form is the same. -/
  form : settings'.form = settings.form
  /-- The other settings are the same. -/
  kept : ∀ name, name ≠ "encoding" → settings'.get? name = settings.get? name
  /-- The encoding is named on the wire. -/
  namedOnWire : settings.form = purpose.form →
    settings'.toJson.member? "encoding" = some (.str encoding)
  /-- The other settings are the same on the wire. -/
  keptOnWire : ∀ name, name ≠ "encoding" →
    settings'.toJson.member? name = settings.toJson.member? name

/-- The parameters submit what a caller holds in the encoding of a name. -/
def Submits (purpose : Purpose) (encoding : String) (held : Holdings) (params : List Param) :
    Prop :=
  ∃ bytes text settings', held.submission.Denotes bytes ∧
    params = [.plain (.str text), .settings settings'] ∧
    Agrees purpose (held.settingsFor purpose) encoding bytes text settings'

variable {purpose : Purpose}

/-- No other setting has the name of the encoding on the wire. -/
theorem Purpose.ofWords_eq_encoding (purpose : Purpose) :
    ∀ field ∈ purpose.form.fields, Camel.ofWords field.1 = "encoding" ↔ field.1 = "encoding" := by
  cases purpose <;> decide +kernel

theorem agrees_set {settings : Settings} {declared : Encoding} (bytes : Bytes)
    (hknows : settings.knows "encoding" = true) (hwritten : declared.written = declared) :
    Agrees purpose settings declared.name bytes (declared.payload bytes)
      (settings.set "encoding" (some (.encoding declared))) where
  named := by
    refine ⟨declared, Settings.get?_set_self, rfl, fun inflate? => ?_⟩
    have hread := declared.decodeWith_payload inflate? bytes
    rwa [hwritten] at hread
  form := rfl
  kept _ hname := if_neg hname
  namedOnWire hform := by
    refine Settings.member?_toJson_set hknows ?_
    rw [hform]
    exact purpose.ofWords_eq_encoding
  keptOnWire _ hname := Settings.member?_toJson_set_of_ne (Ne.symm hname)

/-- What submits has a text. -/
theorem Submits.render {encoding : String} {held : Holdings} {params : List Param}
    (h : Submits purpose encoding held params) (method : String) (id : Int) :
    ∃ text, Request.render ⟨method, params, id⟩ = .ok text := by
  obtain ⟨bytes, text, settings, -, rfl, -⟩ := h
  exact ⟨_, rfl⟩

/-- What the caller holds can be submitted, and there is a call whose text and settings agree; or
there is no call. -/
theorem submitting_cases (purpose : Purpose) (encoding : String) (held : Holdings) :
    (¬Submittable purpose encoding held ∧ ∃ fault,
      Call.submitting purpose held.submission held.settings encoding = .error fault) ∨
    (Submittable purpose encoding held ∧ ∃ call,
      Call.submitting purpose held.submission held.settings encoding = .ok call ∧
        call.method = purpose.method ∧ Submits purpose encoding held call.params) := by
  rw [← exists_submit_eq_ok]
  change (_ ∧ ∃ fault, (ExceptT.run (submit purpose encoding) held).1 = _) ∨
    (_ ∧ ∃ call, (ExceptT.run (submit purpose encoding) held).1 = _ ∧ _)
  cases hmade : (ExceptT.run (submit purpose encoding) held).1 with
  | error fault => exact .inl ⟨nofun, fault, rfl⟩
  | ok call =>
    obtain ⟨bytes, declared, hbytes, rfl, hwritten, hknows, rfl⟩ := submit_eq_ok.mp hmade
    exact .inr ⟨⟨_, rfl⟩, _, rfl, rfl, bytes, _, _, hbytes, rfl, agrees_set bytes hknows hwritten⟩

end Agreement

end Rpc

/-! ## The two connections -/

section Connections

open Rpc (Call Holdings Purpose Reply Request Submits Submittable submitting_cases)

variable (purpose : Purpose) (encoding : String) (held : Holdings)

/-- What a caller holds is sent in the encoding that is named beside it, or not at all. -/
theorem Http.Client.attempt_submitting (client : Client) (circumstances : Circumstances) :
    let attempt := (client.attempt
      (Call.submitting purpose held.submission held.settings encoding) circumstances).2
    (¬(Submittable purpose encoding held ∧ circumstances.cancellation ≠ .before) ∧
      attempt.sent = none ∧ ∃ fault, attempt.outcome = some (.error fault)) ∨
    ((Submittable purpose encoding held ∧ circumstances.cancellation ≠ .before) ∧
      ∃ params text, Submits purpose encoding held params ∧
        Request.render ⟨purpose.method, params, client.nextId⟩ = .ok text ∧
        attempt.sent = some text) := by
  intro attempt
  rcases submitting_cases purpose encoding held with
    ⟨hnot, fault, hmade⟩ | ⟨hable, call, hmade, hmethod, hsubmits⟩
  · have hattempt : attempt = ⟨none, some (.error fault)⟩ := by
      unfold attempt Client.attempt
      rw [hmade]
    rw [hattempt]
    exact .inl ⟨fun h => hnot h.1, rfl, fault, rfl⟩
  · have hattempt : attempt = (client.call call circumstances).2 := by
      unfold attempt Client.attempt
      rw [hmade]
    rw [hattempt]
    by_cases hbefore : circumstances.cancellation = .before
    · exact .inl ⟨fun h => h.2 hbefore, call_of_cancelled call hbefore⟩
    · obtain ⟨text, hrender⟩ := hsubmits.render call.method client.nextId
      have hsent := sent_call hbefore hrender
      rw [hmethod] at hrender
      exact .inr ⟨⟨hable, hbefore⟩, call.params, text, hsubmits, hrender, hsent⟩

/-- What a caller holds is sent in the encoding that is named beside it, or nothing more is sent. -/
theorem Channel.attempt_submitting (c : Channel) (signalled : Bool) (broken : Option String) :
    let attempt := c.attempt
      (Call.submitting purpose held.submission held.settings encoding) signalled broken
    (¬(Submittable purpose encoding held ∧ c.demandOpen signalled = .ok () ∧ broken = none) ∧
      attempt.1.sent = c.sent ∧ ∃ fault, attempt.2 = .begun (.error fault)) ∨
    ((Submittable purpose encoding held ∧ c.demandOpen signalled = .ok () ∧ broken = none) ∧
      ∃ params, Submits purpose encoding held params ∧
        attempt.1.sent = c.sent ++ [.single ⟨purpose.method, params, c.nextId⟩]) := by
  intro attempt
  rcases submitting_cases purpose encoding held with
    ⟨hnot, fault, hmade⟩ | ⟨hable, call, hmade, hmethod, hsubmits⟩
  · have hattempt : attempt = (c, .begun (.error fault)) := by
      unfold attempt Channel.attempt
      rw [hmade]
    rw [hattempt]
    exact .inl ⟨fun h => hnot h.1, rfl, fault, rfl⟩
  · have hattempt : attempt = c.step (.call call.method call.params signalled broken) := by
      unfold attempt Channel.attempt
      rw [hmade]
    rw [hattempt]
    by_cases hopen : c.demandOpen signalled = .ok () ∧ broken = none
    · obtain ⟨text, hrender⟩ := hsubmits.render call.method c.nextId
      obtain ⟨hopen, rfl⟩ := hopen
      have hsent := sent_begin .result call.method call.params hopen hrender
      rw [← hmethod]
      exact .inr ⟨⟨hable, hopen, rfl⟩, call.params, hsubmits, hsent⟩
    · obtain ⟨hsent, fault, hfault⟩ := begin_unsent .result call.method call.params hopen
      exact .inl ⟨fun h => hopen h.2, hsent, fault, congrArg Output.begun hfault⟩

/-- **The text that is submitted is in the encoding that is named beside it.** There is a call just
if the transaction has bytes, the name is one of the two encodings that are written, and the
settings can name an encoding; what the caller holds is the same afterwards, whether there is one or
not. On either connection, if there is a call, and the caller has not cancelled and the connection
is there, a request is sent with a text and settings such that

* the settings name the encoding that the caller asked for, whatever they named before, and the
  text is read in it as the bytes of the transaction, or those that the caller submits;
* every other setting is as the caller has set it.

Otherwise the submission fails before anything is sent. -/
theorem Rpc.submission_in_named_encoding (purpose : Purpose) (encoding : String)
    (held : Holdings) :
    let made := Call.submitting purpose held.submission held.settings encoding
    ExceptT.run (submit purpose encoding) held = (made, held) ∧
    ((∃ call, made = .ok call) ↔ Submittable purpose encoding held) ∧
    (∀ (client : Http.Client) (circumstances : Http.Circumstances),
      let attempt := (client.attempt made circumstances).2
      (¬(Submittable purpose encoding held ∧ circumstances.cancellation ≠ .before) ∧
        attempt.sent = none ∧ ∃ fault, attempt.outcome = some (.error fault)) ∨
      ((Submittable purpose encoding held ∧ circumstances.cancellation ≠ .before) ∧
        ∃ params text, Submits purpose encoding held params ∧
          Request.render ⟨purpose.method, params, client.nextId⟩ = .ok text ∧
          attempt.sent = some text)) ∧
    ∀ (c : Channel) (signalled : Bool) (broken : Option String),
      let attempt := c.attempt made signalled broken
      (¬(Submittable purpose encoding held ∧ c.demandOpen signalled = .ok () ∧ broken = none) ∧
        attempt.1.sent = c.sent ∧ ∃ fault, attempt.2 = .begun (.error fault)) ∨
      ((Submittable purpose encoding held ∧ c.demandOpen signalled = .ok () ∧ broken = none) ∧
        ∃ params, Submits purpose encoding held params ∧
          attempt.1.sent = c.sent ++ [.single ⟨purpose.method, params, c.nextId⟩]) :=
  ⟨Prod.ext rfl (keeps_submit purpose encoding held), exists_submit_eq_ok,
    Http.Client.attempt_submitting purpose encoding held,
    Channel.attempt_submitting purpose encoding held⟩

end Connections

end LedgerClient
