import Switchboard.Proofs.Session.Standard
import Switchboard.Proofs.Snowflake
import Switchboard.Shard

/-!
# Which frames share a worker

The key of a dispatch frame is the text of the value that names its server, or else of the value
that names its channel (`keyOf_dispatch`). Frames that name the same server, or no server and the
same channel, share a worker when they spell the id plainly (`workerOf_shared`).

Nothing else is promised. A key is a text and not an id, so two spellings of one id may go to two
workers; and the server of a channel is not looked up, so a frame that names only a channel may go
to another worker than the frames of the channel's server (`workerOf_parted`).
-/

namespace Switchboard

namespace Packet

/-- The value by which a packet names a server. -/
def serverName? (p : Packet) : Option Value :=
  if !(p.field "guild_id").isNull then some (p.field "guild_id")
  else if p.type.startsWith "GUILD_" && !(p.field "id").isNull then some (p.field "id")
  else none

/-- The value by which a packet names a channel. -/
def channelName? (p : Packet) : Option Value :=
  if !(p.field "channel_id").isNull then some (p.field "channel_id")
  else if p.type.startsWith "CHANNEL_" && !(p.field "id").isNull then some (p.field "id")
  else none

/-- A packet names a channel. -/
def AboutChannel (p : Packet) (channel : Snowflake) : Prop :=
  ∃ v, p.channelName? = some v ∧ v.Names channel

/-- A packet names a server, or a channel that the server owns. -/
def AboutServer (s : Session) (p : Packet) (server : Snowflake) : Prop :=
  (∃ v, p.serverName? = some v ∧ v.Names server) ∨
    ∃ channel, p.AboutChannel channel ∧ s.owner? channel = some server

end Packet

namespace Shard

/-- The key of a packet names its server, and its channel if it names no server. -/
theorem keyValue?_eq (p : Packet) :
    keyValue? p.type p.data = p.serverName?.or p.channelName? := by
  unfold keyValue? Packet.serverName? Packet.channelName? Packet.field
  split
  · rfl
  · split
    · rfl
    · rfl

/-- A payload without fields has no key. -/
theorem keyValue?_nil (type : String) : keyValue? type [] = none := by
  simp [keyValue?, Fields.get, Value.isNull]

/-- The key of a dispatch frame is that of its packet. -/
theorem keyOf_dispatch {frame : Value} {p : Packet} (h : Packet.ofFrame frame = .ok (some p)) :
    keyOf frame = match p.serverName?.or p.channelName? with
      | none => .ok none
      | some v => match v.keyText? with
        | some s => .ok (some s)
        | none => .error .tooLongToWrite := by
  -- The fields of the frame are those of its packet.
  obtain ⟨es, rfl, htype, hdata⟩ := Packet.fields_of_ofFrame h
  rw [← keyValue?_eq, keyOf, key, htype]
  rcases hdata with hdata | ⟨hnone, hdata⟩
  · rw [hdata]
    rfl
  · -- Without a payload there is no key.
    rw [hnone, keyValue?_nil]
    split
    · rename_i data hmap
      rw [hmap] at hdata
      cases hdata
    · rfl

/-- The worker of a frame whose key is the name of an id, spelled plainly. -/
theorem workerOf_names {frame : Value} {p : Packet} (h : Packet.ofFrame frame = .ok (some p))
    {v : Value} (hv : p.serverName?.or p.channelName? = some v) {id : Snowflake}
    (hn : v.Names id) (hp : v.Plain) (hw : v.isWritable = true) (workers : Nat) :
    workerOf workers frame = .ok (workerFor workers (some (toString id))) := by
  rw [workerOf, keyOf_dispatch h, hv]
  dsimp only
  rw [Value.keyText?_of_names hn hp hw]
  rfl

/-- The value that names the server or the channel stands at some name. -/
theorem exists_get_of_keyValue? {type : String} {data : Fields} {v : Value}
    (hv : keyValue? type data = some v) : ∃ name, data.get name = v := by
  unfold keyValue? at hv
  split at hv
  · exact ⟨_, Option.some.inj hv⟩
  · split at hv
    · exact ⟨_, Option.some.inj hv⟩
    · split at hv
      · exact ⟨_, Option.some.inj hv⟩
      · split at hv
        · exact ⟨_, Option.some.inj hv⟩
        · cases hv

/-- A frame whose values can be written has a key. -/
theorem exists_keyOf {v : Value} (hv : v.isWritable = true) :
    ∃ key, keyOf v = .ok key := by
  cases v with
  | scalar s => exact ⟨none, rfl⟩
  | list xs => exact ⟨none, rfl⟩
  | map es =>
    have hes : Value.entriesWritable es = true := hv
    -- The key is the text of a value of the payload.
    show ∃ k, key es = .ok k
    unfold key
    split
    · rename_i data hd
      have hdata : Value.entriesWritable data = true := by
        have hget := Value.isWritable_get hes "d"
        rw [hd] at hget
        exact hget
      -- Without such a value there is no key, which is no failure.
      split
      · exact ⟨none, rfl⟩
      · rename_i v hkey
        obtain ⟨type, -, hkey⟩ := Option.bind_eq_some_iff.mp hkey
        obtain ⟨name, rfl⟩ := exists_get_of_keyValue? hkey
        -- The value can be written, so it has a text.
        have hwritable := Value.isWritable_get hdata name
        have htext : (Fields.get data name).keyText?.isSome = true := by
          unfold Value.keyText? Value.shown?
          split
          · rfl
          · rw [if_pos hwritable]
            rfl
        obtain ⟨text, htext⟩ := Option.isSome_iff_exists.mp htext
        rw [htext]
        exact ⟨some text, rfl⟩
    · exact ⟨none, rfl⟩

/-- A worker is one of those that there are. -/
theorem workerFor_lt {workers : Nat} (h : 0 < workers) (key : Option String) :
    workerFor workers key < workers := by
  cases key with
  | none => exact h
  | some k => exact Nat.mod_lt _ h

/-- The worker of a frame is one of those that there are. -/
theorem workerOf_lt {workers : Nat} (h : 0 < workers) {frame : Value} {i : Nat}
    (hi : workerOf workers frame = .ok i) : i < workers := by
  obtain ⟨key, -, rfl⟩ := map_eq_ok.mp hi
  exact workerFor_lt h key

/-- A value names an id, spelled plainly. -/
structure Calls (v : Value) (id : Snowflake) : Prop where
  names : v.Names id
  plain : v.Plain
  writable : v.isWritable = true

/-- Two frames that name the same server, or no server and the same channel, share a worker when
they spell the id plainly. -/
theorem workerOf_shared {workers : Nat} (hworkers : 0 < workers) {frame frame' : Value}
    {p p' : Packet} (hf : Packet.ofFrame frame = .ok (some p))
    (hf' : Packet.ofFrame frame' = .ok (some p')) {v v' : Value} {id : Snowflake}
    (h : (p.serverName? = some v ∧ p'.serverName? = some v') ∨
      (p.serverName? = none ∧ p'.serverName? = none ∧
        p.channelName? = some v ∧ p'.channelName? = some v'))
    (hv : Calls v id) (hv' : Calls v' id) :
    ∃ worker < workers, workerOf workers frame = .ok worker ∧
      workerOf workers frame' = .ok worker := by
  -- Where a server is named the key does not depend on the channel.
  have hkey : p.serverName?.or p.channelName? = some v ∧
      p'.serverName?.or p'.channelName? = some v' := by
    rcases h with ⟨hs, hs'⟩ | ⟨hs, hs', hc, hc'⟩
    · rw [hs, hs']
      exact ⟨rfl, rfl⟩
    · rw [hs, hs', hc, hc']
      exact ⟨rfl, rfl⟩
  refine ⟨workerFor workers (some (toString id)), workerFor_lt hworkers _, ?_, ?_⟩
  · exact workerOf_names hf hkey.1 hv.names hv.plain hv.writable workers
  · exact workerOf_names hf' hkey.2 hv'.names hv'.plain hv'.writable workers

/-- A server comes in under an integer, and a message of it names the server by a text. -/
theorem workerOf_shared_server : ∃ (frame frame' : Value) (p p' : Packet),
    Packet.ofFrame frame = .ok (some p) ∧ Packet.ofFrame frame' = .ok (some p') ∧
      p.serverName? = some (.int 9) ∧ p'.serverName? = some (.text "9") ∧
      Calls (.int 9) 9 ∧ Calls (.text "9") 9 ∧
      ∃ worker < 4, workerOf 4 frame = .ok worker ∧ workerOf 4 frame' = .ok worker := by
  let p : Packet := ⟨"GUILD_CREATE", [(.text "id", .int 9)], none⟩
  let p' : Packet :=
    ⟨"MESSAGE_CREATE", [(.text "guild_id", .text "9"), (.text "channel_id", .int 2)], none⟩
  let frame : Value := .map [(.text "t", .text p.type), (.text "d", .map p.data)]
  let frame' : Value := .map [(.text "t", .text p'.type), (.text "d", .map p'.data)]
  -- The first frame names the server as that which comes, the second one by a field.
  have hserver : p.serverName? = some (.int 9) := by
    have hprefix : p.type.startsWith "GUILD_" = true := by decide +kernel
    rw [Packet.serverName?, hprefix]
    rfl
  have hserver' : p'.serverName? = some (.text "9") := rfl
  -- Both values call the server by the same text.
  have hint : Calls (.int 9) 9 := ⟨⟨"", "", rfl⟩, trivial, by decide +kernel⟩
  have htext : Calls (.text "9") 9 := by
    refine ⟨⟨"", "", rfl⟩, fun cs hcs => ?_, rfl⟩
    have hnine : ['9'] = '0' :: cs := hcs
    cases hnine
  exact ⟨frame, frame', p, p', rfl, rfl, hserver, hserver', hint, htext,
    workerOf_shared (by decide) rfl rfl (.inl ⟨hserver, hserver'⟩) hint htext⟩

/-- The coming and the going of a server go to two workers when one of them spells the id with a
zero in front. And a channel comes in for a server under one worker, while a message that names only
the channel goes to another one. -/
theorem workerOf_parted :
    (∃ join leave : Value, Notice.ofFrame? join = some (.serverCreate ⟨1, ""⟩ []) ∧
      Notice.ofFrame? leave = some (.serverDelete 1 false) ∧
      workerOf 4 join = .ok 3 ∧ workerOf 4 leave = .ok 2) ∧
    ∃ (s : Session) (channel message : Value) (p p' : Packet),
      Packet.ofFrame channel = .ok (some p) ∧ Packet.ofFrame message = .ok (some p') ∧
      s.owner? 2 = some 1 ∧ p.AboutServer s 1 ∧ p'.AboutServer s 1 ∧
      p.AboutChannel 2 ∧ p'.AboutChannel 2 ∧
      workerOf 4 channel = .ok 3 ∧ workerOf 4 message = .ok 1 := by
  -- What the ids in the payloads name.
  have hone : Value.Names (.text "1") 1 := ⟨"", "", rfl⟩
  have htwo : Value.Names (.text "2") 2 := ⟨"", "", rfl⟩
  constructor
  · -- The server comes as "1" and goes as "01".
    let join : Value :=
      .map [(.text "t", .text "GUILD_CREATE"), (.text "d", .map [(.text "id", .text "1")])]
    let leave : Value :=
      .map [(.text "t", .text "GUILD_DELETE"), (.text "d", .map [(.text "id", .text "01")])]
    exact ⟨join, leave, by decide +kernel, by decide +kernel, by decide +kernel,
      by decide +kernel⟩
  · -- The channel comes under its server, and the message names the channel alone.
    let s : Session :=
      { settings := Settings.defaults, handlers := .standard false
        cache := { servers := [(1, ⟨1, ""⟩)], channels := [(2, ⟨2, "", some 1⟩)] } }
    let p : Packet :=
      ⟨"CHANNEL_CREATE", [(.text "id", .text "2"), (.text "guild_id", .text "1")], none⟩
    let p' : Packet :=
      ⟨"MESSAGE_CREATE", [(.text "id", .text "5"), (.text "channel_id", .text "2")], none⟩
    let channel : Value := .map [(.text "t", .text p.type), (.text "d", .map p.data)]
    let message : Value := .map [(.text "t", .text p'.type), (.text "d", .map p'.data)]
    have hname : p.channelName? = some (.text "2") := by
      have hprefix : p.type.startsWith "CHANNEL_" = true := by decide +kernel
      rw [Packet.channelName?, hprefix]
      rfl
    have hchannel : p.AboutChannel 2 := ⟨.text "2", hname, htwo⟩
    have hmessage : p'.AboutChannel 2 := ⟨.text "2", rfl, htwo⟩
    have hserver : p.AboutServer s 1 := .inl ⟨.text "1", rfl, hone⟩
    exact ⟨s, channel, message, p, p', rfl, rfl, rfl, hserver, .inr ⟨2, hmessage, rfl⟩,
      hchannel, hmessage, by decide +kernel, by decide +kernel⟩

end Shard

end Switchboard
