import LedgerClient.Proofs.Json.Legible
import LedgerClient.Rpc.Frame
import LedgerClient.Rpc.Shape

/-!
# Legible payloads

A text that a host can read and that is a payload has frames of which every part can be read again,
and one that is no payload is refused for its form. The same holds of what a text is decoded to:
whatever is expected, a text that can be read is refused for its form only.

## Main definitions

* `Rpc.Frame.Legible`: what a frame notifies can be read

## Main results

* `Rpc.Payload.read_cases`: what comes of a text that arrives
* `Rpc.Payload.read_of_deep`: a frame whose result nests too deep cannot be read
* `Rpc.Shape.decode_eq_unexpected`: why a text is no reply of a shape
-/

namespace LedgerClient.Rpc

open Json (Clean Obstacle Tree MembersLegible ItemsLegible Readable)

variable {α : Type} {good : α → Prop} {tree : Tree} {text bs : Bytes}
  {member : Bytes × Bytes × Tree} {limit : Nat} {host : Host}

/-- The result that a frame notifies can be read to a depth. -/
def Frame.Legible (limit : Nat) (frame : Frame) : Prop :=
  ∀ notice, frame.notice = some notice → Readable limit notice.result

/-! ## Parts of a frame -/

section Parts

theorem clean_readInt (h : tree.Legible limit) : Clean (fun _ => True) (readInt tree) := by
  unfold readInt
  split
  · split
    · rfl
    · trivial
  · exact h.mismatch

theorem clean_readText (h : tree.Legible limit) : Clean (fun _ => True) (readText tree) := by
  unfold readText
  split
  · exact Json.clean_text h
  · exact h.mismatch

theorem clean_readOptional {read : Tree → Except Obstacle α} (h : Clean good (read tree)) :
    Clean (fun x => ∀ a, x = some a → good a) (readOptional read tree) := by
  unfold readOptional
  split
  · intro a ha
    cases ha
  · exact h.map fun x hx a ha => Option.some.inj ha ▸ hx

theorem clean_readRaw (htext : Readable limit text) (h : tree.Legible limit) :
    Clean (Readable limit) (readRaw text tree) := by
  unfold readRaw
  split
  · exact htext
  · next why hwhy => exact h.mark? why hwhy

theorem clean_readMembers (h : tree.Legible limit) :
    Clean (MembersLegible limit) (readMembers tree) := by
  unfold readMembers
  split
  · exact h
  · exact h.mismatch

/-- What an object is read to is read member by member. -/
theorem clean_foldMembers {put : α → Bytes × Bytes × Tree → Except Obstacle α} {x : α}
    (h : tree.Legible limit) (hx : good x)
    (hput : ∀ name text tree, Readable limit text → tree.Legible limit → ∀ x, good x →
      Clean good (put x (name, text, tree))) :
    Clean good (readMembers tree >>= fun members => members.foldlM put x) := by
  refine (clean_readMembers h).bind fun members hmembers => ?_
  refine Clean.foldlM hx fun member hmember x hx => ?_
  obtain ⟨name, text, tree⟩ := member
  obtain ⟨-, htext, htree⟩ := hmembers.of_mem hmember
  exact hput name text tree htext htree x hx

theorem clean_readError (h : tree.Legible limit) : Clean (fun _ => True) (readError tree) := by
  have hmembers : Clean (fun _ => True)
      (readMembers tree >>= fun members => members.foldlM PartialError.put {}) := by
    refine clean_foldMembers h trivial fun name text tree htext htree e _ => ?_
    unfold PartialError.put
    dsimp only
    split
    · exact (clean_readInt htree).bind fun _ _ => trivial
    · exact (clean_readText htree).bind fun _ _ => trivial
    · exact (Json.clean_value htree).bind fun _ _ => trivial
    · exact (clean_readRaw htext htree).bind fun _ _ => trivial
  -- Every member is read before anything is missed.
  unfold readError
  rw [← bind_assoc]
  refine hmembers.bind fun e _ => ?_
  split
  · trivial
  · rfl

theorem readable_absentResult (limit : Nat) : Readable limit absentResult :=
  .mono ⟨Utf8.wellFormed_encode _, by decide⟩ (Nat.zero_le limit)

theorem clean_readNotice (h : tree.Legible limit) :
    Clean (fun notice => Readable limit notice.result) (readNotice tree) := by
  have habsent := readable_absentResult limit
  have hmembers : Clean (fun n : Option Int × Bytes => Readable limit n.2)
      (readMembers tree >>= fun members => members.foldlM putNotice (none, absentResult)) := by
    refine clean_foldMembers h habsent fun name text tree htext htree n hn => ?_
    unfold putNotice
    dsimp only
    split
    · exact (clean_readInt htree).bind fun _ _ => hn
    · exact (clean_readRaw htext htree).bind fun _ hraw => hraw
    · exact (clean_readRaw htext htree).bind fun _ _ => hn
  unfold readNotice
  rw [← bind_assoc]
  refine hmembers.bind fun n hn => ?_
  split
  · exact hn
  · rfl

end Parts

/-! ## Frames -/

section Frames

theorem clean_frame (h : tree.Legible limit) :
    Clean (Frame.Legible limit) (Frame.ofTree tree) := by
  refine clean_foldMembers h (fun notice hnotice => by cases hnotice)
    fun name text tree htext htree frame hframe => ?_
  unfold Frame.put
  dsimp only
  split
  · exact (clean_readText htree).bind fun _ _ => hframe
  · exact (clean_readOptional (clean_readInt htree)).bind fun _ _ => hframe
  · exact (clean_readRaw htext htree).bind fun _ _ => hframe
  · exact (clean_readOptional (clean_readError htree)).bind fun _ _ => hframe
  · exact (clean_readOptional (clean_readText htree)).bind fun _ _ => hframe
  · exact (clean_readOptional (clean_readNotice htree)).bind fun _ hnotice => hnotice
  · exact (clean_readRaw htext htree).bind fun _ _ => hframe

theorem clean_payload (tree : Tree) (h : tree.Legible limit) :
    Clean (fun payload => ∀ frame ∈ payload.frames, frame.Legible limit)
      (Payload.ofTree tree) := by
  unfold Payload.ofTree
  split
  · next items =>
    exact (Clean.mapM fun item hitem => clean_frame (ItemsLegible.of_mem h hitem)).map
      fun frames hframes => hframes
  · exact (clean_frame h).map fun frame hframe =>
      List.forall_mem_cons.mpr ⟨hframe, List.forall_mem_nil _⟩

/-- **A text that arrives and can be read is a payload of legible frames, or is refused for its
form.** -/
theorem Payload.read_cases (h : Readable host.nesting bs) :
    (∃ payload, Payload.read bs host = .ok payload ∧
      ∀ frame ∈ payload.frames, frame.Legible host.nesting) ∨
    Payload.read bs host = .error (.codec .malformedPayload) := by
  have hclean := Clean.using clean_payload h
  unfold Payload.read
  cases hread : (Json.Document.read bs host.nesting).using Payload.ofTree with
  | ok payload =>
    rw [hread] at hclean
    exact .inl ⟨payload, rfl, hclean⟩
  | error obstacle =>
    rw [hread] at hclean
    cases hclean
    exact .inr rfl

theorem put_result_of_mark {name : Bytes} {why : Obstacle}
    (hname : Utf8.decode name = .ok "result") (h : tree.mark? = some why) (frame : Frame) :
    frame.put (name, text, tree) = .error why := by
  unfold Frame.put readRaw
  dsimp only
  rw [hname, h]
  rfl

/-- **A frame whose result nests too deep cannot be read**, whatever comes after. -/
theorem Payload.read_of_deep {n : Nat} (hdeep : host.nesting ≤ n) (rest : Bytes) :
    Payload.read (Utf8.encode "\x7b\"result\":" ++ (List.replicate n 0x5B ++ rest)) host =
      .error (.misuse (.text .nesting)) := by
  have hfront : Utf8.encode "\x7b\"result\":" = 0x7B :: 0x22 :: Utf8.encode "result\":" := by
    cbv
  suffices hread : ∃ members, (Json.Document.read (Utf8.encode "\x7b\"result\":" ++
      (List.replicate n 0x5B ++ rest)) host.nesting).tree = .obj members ∧
      members.foldlM Frame.put {} = .error (.text .nesting) by
    obtain ⟨members, htree, hfold⟩ := hread
    rw [Payload.read, Json.Document.using, htree]
    change Except.mapError _ ((Payload.single <$> (members.foldlM Frame.put {})) >>= _) = _
    rw [hfold]
    rfl
  rw [hfront]
  cases hnesting : host.nesting with
  | zero =>
    refine ⟨_, rfl, ?_⟩
    cbv
  | succ depth =>
    rw [hnesting] at hdeep
    obtain ⟨n, rfl⟩ := Nat.exists_eq_add_one_of_ne_zero (Nat.ne_of_gt (Nat.zero_lt_of_lt hdeep))
    let key := Utf8.encode "result\":"
    let tail := List.replicate (n + 1) 0x5B ++ rest
    have hfuel : 2 * depth < 2 * (key ++ tail).length + 4 := by
      simp only [tail, List.length_append, List.length_replicate]
      omega
    obtain ⟨tree, hvalue, hmark⟩ := Json.readValue_deep hdeep hfuel rest
    have hname : Json.string? (key ++ tail) = some (Utf8.encode "result", 0x3A :: tail) := rfl
    refine ⟨_, congrArg Json.Document.tree (Json.document_of_stuck hname hvalue), ?_⟩
    rw [List.foldlM_cons, put_result_of_mark (Utf8.decode_encode "result") hmark]
    rfl

end Frames

/-! ## Replies -/

section Replies

variable {shape : Shape}

theorem clean_numberReply (shape : Shape) (n : Json.Number) :
    Clean (fun _ => True) (numberReply shape n) := by
  unfold numberReply
  repeat' split
  all_goals trivial

theorem clean_standIn (shape : Shape) (content : Bytes) :
    Clean (fun _ => True) (standIn shape content) := by
  unfold standIn
  dsimp only
  repeat' split
  all_goals first | trivial | exact clean_numberReply _ _

theorem clean_completeRecord (sent : List (String × Reply))
    (fields : List (RecordField Alternative)) :
    Clean (fun _ => True) (completeRecord sent fields) := by
  induction fields with
  | nil => trivial
  | cons field fields ih =>
    have hrest (reply : Reply) : Clean (fun _ => True)
        ((completeRecord sent fields).bind fun replies => .ok ((field.name, reply) :: replies)) :=
      ih.bind fun _ _ => trivial
    rw [completeRecord]
    split
    · exact hrest _
    · exact hrest _
    · rfl

/-- Whatever a key or a blob is refused for, the reply is refused for its form. -/
theorem clean_convert {conversion : Json.Value → Except Fault Reply}
    (h : tree.Legible limit) : Clean (fun _ => True) (convert shape conversion tree) := by
  refine (Json.clean_value h).bind fun value _ => ?_
  split
  · split
    · trivial
    · rfl
  · cases conversion value with
    | ok reply => trivial
    | error fault => rfl

mutual

/-- **A legible structure is no reply of a shape for its form only.** -/
theorem clean_reply (shape : Shape) : ∀ {tree : Tree}, tree.Legible limit →
    Clean (fun _ => True) (shape.reply host tree)
  | .broken _, h => h
  | .null, _ => by
    rw [Shape.reply]
    split
    · trivial
    · rfl
  | .bool b, _ => by
    rw [Shape.reply]
    split
    · rfl
    · split
      · trivial
      · rfl
  | .number n, h => by
    rw [Shape.reply]
    split
    · exact clean_convert h
    · exact clean_numberReply shape n
  | .str content, h => by
    rw [Shape.reply]
    split
    · exact clean_convert h
    · split
      · exact (Json.clean_text h).map fun _ _ => trivial
      · exact clean_standIn shape content
  | .arr items, h => by
    rw [Shape.reply]
    split
    · exact clean_convert h
    · next item _ _ =>
      split
      · exact (Json.clean_value h).map fun _ _ => trivial
      · exact (clean_itemReplies item h).map fun _ _ => trivial
    · split
      · exact (Json.clean_value h).map fun _ _ => trivial
      · rfl
  | .obj members, h => by
    rw [Shape.reply]
    split
    · exact clean_convert h
    · next label fields _ _ =>
      exact (clean_memberReplies fields h).bind fun sent _ =>
        (clean_completeRecord sent fields).map fun _ _ => trivial
    · next entry _ _ _ => exact (clean_entryReplies entry h).bind fun _ _ => trivial
    · split
      · exact (Json.clean_value h).map fun _ _ => trivial
      · rfl

theorem clean_itemReplies (shape : Shape) : ∀ {items : List Tree}, ItemsLegible limit items →
    Clean (fun _ => True) (itemReplies host shape items)
  | [], _ => by
    rw [itemReplies]
    trivial
  | item :: items, h => by
    rw [itemReplies]
    exact (clean_reply shape h.1).bind fun _ _ =>
      (clean_itemReplies shape h.2).bind fun _ _ => trivial

theorem clean_memberReplies (fields : List (RecordField Alternative)) :
    ∀ {members : List (Bytes × Bytes × Tree)}, MembersLegible limit members →
      Clean (fun _ => True) (memberReplies host fields members)
  | [], _ => by
    rw [memberReplies]
    trivial
  | (name, text, tree) :: members, h => by
    rw [memberReplies]
    split
    · next field _ =>
      exact (clean_reply field.shape h.2.2.1).bind fun _ _ =>
        (clean_memberReplies fields h.2.2.2).bind fun _ _ => trivial
    · split
      · exact clean_memberReplies fields h.2.2.2
      · next why hwhy => exact h.2.2.1.mark? why hwhy

theorem clean_entryReplies (shape : Shape) :
    ∀ {members : List (Bytes × Bytes × Tree)}, MembersLegible limit members →
      Clean (fun _ => True) (entryReplies host shape members)
  | [], _ => by
    rw [entryReplies]
    trivial
  | (name, text, tree) :: members, h => by
    rw [entryReplies]
    exact (Json.clean_text h.1).bind fun _ _ => (clean_reply shape h.2.2.1).bind fun _ _ =>
      (clean_entryReplies shape h.2.2.2).bind fun _ _ => trivial

end

/-- **A text that can be read and is no reply of a shape is refused for its form.** -/
theorem Shape.decode_eq_unexpected {fault : Fault} (h : Readable host.nesting bs)
    (hdecode : shape.decode bs host = .error fault) : fault = .codec .unexpectedShape := by
  have hclean : Clean (fun _ => True)
      ((Json.Document.read bs host.nesting).using (shape.reply host)) :=
    Clean.using (fun _ htree => clean_reply shape htree) h
  unfold Shape.decode at hdecode
  cases hread : (Json.Document.read bs host.nesting).using (shape.reply host) with
  | ok reply =>
    rw [hread] at hdecode
    cases hdecode
  | error obstacle =>
    rw [hread] at hclean hdecode
    cases hclean
    cases hdecode
    rfl

end Replies

end LedgerClient.Rpc
