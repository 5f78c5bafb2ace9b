import Switchboard.Message.Call
import Switchboard.Proofs.Attempt
import Switchboard.Proofs.Table

/-!
# The reactions of a message

A message is `Tidy` when every reaction record stands under the key of its own emoji and has users.
The calls on reactions keep it so and change nothing else of the message (`perform_spec`), and they
fail just when an emoji has no key that is needed (`exists_perform`, `perform_keyless`). A call that
succeeds shows in the message (`reflects_of_perform`).
-/

namespace Switchboard

/-- A list of users is not empty once one is added. -/
theorem insertUser_ne_nil (u : Snowflake) (us : List Snowflake) : insertUser u us ≠ [] := by
  cases us with
  | nil => simp [insertUser]
  | cons v vs =>
    unfold insertUser
    split
    · simp
    · split <;> simp

/-- A user that is added to a list is in it. -/
theorem mem_insertUser (u : Snowflake) (us : List Snowflake) : u ∈ insertUser u us := by
  induction us with
  | nil => simp [insertUser]
  | cons v vs ih =>
    unfold insertUser
    split
    · exact List.mem_cons_self
    · split
      · rename_i h
        exact h ▸ List.mem_cons_self
      · exact List.mem_cons_of_mem v ih

/-- The emojis that a call names. -/
def ReactionCall.emojis : ReactionCall → List Emoji
  | add e _ | remove e _ | dropEmoji e | get e | contains e _ => [e]
  | replace rs => rs.map Reaction.emoji
  | removeAll => []

/-- Every emoji whose key the call needs has one. -/
def ReactionCall.hasKeys : ReactionCall → Bool
  | add e _ | remove e _ | dropEmoji e | get e | contains e _ => e.hasKey
  | removeAll => true
  | replace rs => rs.all fun r => r.users.isEmpty || r.emoji.hasKey

/-- A call needs no keys but those of the emojis that it names. -/
theorem ReactionCall.hasKeys_of_emojis {call : ReactionCall}
    (h : ∀ e ∈ call.emojis, e.hasKey = true) : call.hasKeys = true := by
  cases call with
  | add e u | remove e u | dropEmoji e | get e | contains e u => exact h e List.mem_cons_self
  | removeAll => rfl
  | replace rs =>
    refine List.all_eq_true.mpr fun r hr => ?_
    rw [h r.emoji (List.mem_map_of_mem hr), Bool.or_true]

namespace Message

/-- Every reaction record stands under the key of its own emoji and has users. -/
structure Tidy (m : Message) : Prop where
  filed : Table.Filed (fun r : Reaction => r.emoji.key) m.reactions
  used : ∀ e ∈ m.reactions, e.2.users ≠ []

variable {m : Message}

/-- A message without reactions. -/
theorem Tidy.of_nil (h : m.reactions = []) : m.Tidy where
  filed := h ▸ .nil
  used := by simp [h]

/-- A record with users is put under its own key. -/
theorem Tidy.put (h : m.Tidy) {r : Reaction} (hr : r.users ≠ []) :
    Tidy { m with reactions := Table.put r.emoji.key r m.reactions } where
  filed := h.filed.put r
  used e he := by
    rcases Table.mem_of_mem_put he with rfl | he
    · exact hr
    · exact h.used e he

/-- A record is dropped. -/
theorem Tidy.drop (h : m.Tidy) (key : String) :
    Tidy { m with reactions := Table.drop key m.reactions } where
  filed := h.filed.drop key
  used e he := h.used e (List.mem_filter.mp he).1

/-- A user is added to a record. -/
theorem Tidy.react (h : m.Tidy) (e : Emoji) (u : Snowflake) : (m.react e u).2.Tidy :=
  h.put (r := ⟨e, insertUser u _⟩) (insertUser_ne_nil u _)

/-- A user is taken from a record, which goes with its last user. -/
theorem Tidy.unreact (h : m.Tidy) (e : Emoji) (u : Snowflake) : (m.unreact e u).2.Tidy := by
  unfold Message.unreact
  split
  · exact h
  · rename_i r hr
    dsimp only
    split
    · exact h.drop e.key
    · rename_i hne
      -- The record keeps its emoji, which has the key that it was found under.
      have hkey : r.emoji.key = e.key := h.filed.key_of_find? hr
      have hput := h.put (r := ⟨r.emoji, r.users.filter (· != u)⟩) (by simpa using hne)
      rw [← hkey]
      exact hput

/-- A list of records takes the place of the present ones. -/
theorem Tidy.withReactions (m : Message) (rs : List Reaction) : (m.withReactions rs).Tidy := by
  -- Records with users are put one after another into a table that is tidy already.
  have hput (rs : List Reaction) (hrs : ∀ r ∈ rs, r.users ≠ []) (m : Message) (h : m.Tidy) :
      Tidy { m with reactions :=
        Table.putAll m.reactions (rs.map fun r => (r.emoji.key, r)) } := by
    induction rs generalizing m with
    | nil => exact h
    | cons r rs ih =>
      exact ih (fun r' hr' => hrs r' (List.mem_cons_of_mem r hr'))
        { m with reactions := Table.put r.emoji.key r m.reactions }
        (h.put (hrs r List.mem_cons_self))
  refine hput (rs.filter fun r => !r.users.isEmpty) (fun r hr => ?_) { m with reactions := [] }
    (.of_nil rfl)
  simpa using (List.mem_filter.mp hr).2

/-- Taking a user from a record changes nothing but the reactions. -/
theorem unreact_same (m : Message) (e : Emoji) (u : Snowflake) :
    (m.unreact e u).2 = { m with reactions := (m.unreact e u).2.reactions } := by
  unfold unreact
  split
  · rfl
  · dsimp only
    split
    · rfl
    · rfl

/-- A call that succeeds leaves the message tidy and changes nothing but its reactions. -/
theorem perform_spec {m' : Message} {call : ReactionCall} {answer : ReactionAnswer}
    (h : m.perform call = .ok (answer, m')) :
    m'.id = m.id ∧ m'.channel = m.channel ∧ m'.createdAt = m.createdAt ∧ (m.Tidy → m'.Tidy) := by
  cases call with
  | add e u =>
    obtain ⟨-, -, h⟩ := bind_eq_ok.mp h
    cases h
    exact ⟨rfl, rfl, rfl, fun ht => ht.react e u⟩
  | remove e u =>
    obtain ⟨-, -, h⟩ := bind_eq_ok.mp h
    have hm : m' = (m.unreact e u).2 := (congrArg Prod.snd (Except.ok.inj h)).symm
    have hsame := unreact_same m e u
    rw [hm]
    exact ⟨by rw [hsame], by rw [hsame], by rw [hsame], fun ht => ht.unreact e u⟩
  | dropEmoji e =>
    obtain ⟨-, -, h⟩ := bind_eq_ok.mp h
    cases h
    exact ⟨rfl, rfl, rfl, fun ht => ht.drop e.key⟩
  | removeAll =>
    cases h
    exact ⟨rfl, rfl, rfl, fun _ => .of_nil rfl⟩
  | get e =>
    obtain ⟨-, -, h⟩ := bind_eq_ok.mp h
    cases h
    exact ⟨rfl, rfl, rfl, fun ht => ht⟩
  | replace rs =>
    simp only [perform] at h
    split at h
    · cases h
      exact ⟨rfl, rfl, rfl, fun _ => .withReactions m rs⟩
    · cases h
  | contains e u =>
    obtain ⟨-, -, h⟩ := bind_eq_ok.mp h
    cases h
    exact ⟨rfl, rfl, rfl, fun ht => ht⟩

/-- The message after a call on its reactions; a call that fails leaves it as it is. -/
def after (m : Message) (call : ReactionCall) : Message :=
  match m.perform call with
  | .ok (_, m') => m'
  | .error _ => m

/-- A call on the reactions of a message leaves the message under its id and in its channel. -/
theorem after_spec (m : Message) (call : ReactionCall) :
    (m.after call).id = m.id ∧ (m.after call).channel = m.channel := by
  unfold after
  split
  · rename_i hp
    obtain ⟨hid, hchannel, -, -⟩ := perform_spec hp
    exact ⟨hid, hchannel⟩
  · exact ⟨rfl, rfl⟩

/-- A message shows what a call on its reactions was for. -/
def Reflects (m : Message) : ReactionCall → Prop
  | .add e u => ∃ r, m.reaction? e = some r ∧ r.contains u = true
  | .remove e u => ∀ r, m.reaction? e = some r → r.contains u = false
  | .dropEmoji e => m.reaction? e = none
  | .removeAll => m.reactions = []
  | .get _ | .replace _ | .contains _ _ => True

/-- A call that succeeds has its effect. -/
theorem reflects_of_perform {m' : Message} {call : ReactionCall} {answer : ReactionAnswer}
    (h : m.perform call = .ok (answer, m')) : m'.Reflects call := by
  cases call with
  | add e u =>
    obtain ⟨-, -, h⟩ := bind_eq_ok.mp h
    cases h
    refine ⟨_, Table.find?_put_self .., ?_⟩
    simpa [Reaction.contains] using mem_insertUser u _
  -- The record of the user, if there is one, goes or stays without the user.
  | remove e u =>
    obtain ⟨-, -, h⟩ := bind_eq_ok.mp h
    have hm : m' = (m.unreact e u).2 := (congrArg Prod.snd (Except.ok.inj h)).symm
    intro r hr
    rw [hm, unreact] at hr
    split at hr
    · rename_i hnone
      rw [hnone] at hr
      cases hr
    · dsimp only at hr
      split at hr
      · simp [reaction?] at hr
      · simp only [reaction?, Table.find?_put_self, Option.some.injEq] at hr
        rw [← hr]
        simp [Reaction.contains]
  | dropEmoji e =>
    obtain ⟨-, -, h⟩ := bind_eq_ok.mp h
    cases h
    exact Table.find?_drop_self ..
  | removeAll =>
    cases h
    rfl
  | get e => trivial
  | replace rs => trivial
  | contains e u => trivial

/-- A call that has the keys that it needs succeeds. -/
theorem exists_perform (m : Message) {call : ReactionCall} (h : call.hasKeys = true) :
    ∃ answer m', m.perform call = .ok (answer, m') := by
  have hkey {e : Emoji} (he : e.hasKey = true) : e.key? = .ok e.key := if_pos he
  cases call with
  | add e u | remove e u | dropEmoji e | get e | contains e u =>
    exact ⟨_, _, bind_eq_ok.mpr ⟨_, hkey h, rfl⟩⟩
  | removeAll => exact ⟨_, _, rfl⟩
  | replace rs => exact ⟨_, _, if_pos h⟩

/-- A call that needs a key that cannot be written fails. -/
theorem perform_keyless (m : Message) {call : ReactionCall} (h : call.hasKeys = false) :
    m.perform call = .error .tooLongToWrite := by
  have hkey {e : Emoji} (he : e.hasKey = false) : e.key? = .error .tooLongToWrite :=
    if_neg (by simp [he])
  cases call with
  | add e u | remove e u | dropEmoji e | get e | contains e u =>
    simp only [Message.perform, hkey h]
    rfl
  | removeAll => cases h
  | replace rs => exact if_neg (by simpa [ReactionCall.hasKeys] using h)

end Message

end Switchboard
