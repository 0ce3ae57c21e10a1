import Qtap.Mysql.Arrivals

/-!
# The limit of the packet buffer

`Append` refuses an event that does not fit behind the bytes of the packet that is still
incomplete, before any packet is taken off, and forgets those bytes.  What the events of
one side yield is what their bytes hold exactly when each of them fits.  A payload beyond
the largest packet comes as several packets, and each of them is handled for itself.
-/

namespace Qtap.Mysql

open Correlation Mysql.Parser List Qtap.Core Qtap.Connection

/-! ## Events and packets -/

/-- `Append`, then `ParsePacket` until it is incomplete. -/
def Parser.feed (parser : Parser) (data : List Byte) : List Packet × Parser :=
  match parser.append data with
  | (parser, some _) => ([], parser)
  | (parser, none) =>
    ((packetFramer.drain parser.buffer).1, { buffer := (packetFramer.drain parser.buffer).2 })

def Parser.feedAll : Parser → List (List Byte) → List Packet
  | _, [] => []
  | parser, data :: events => (parser.feed data).1 ++ feedAll (parser.feed data).2 events

/-- Every event finds room behind what the events before it left incomplete. -/
def Fits : List Byte → List (List Byte) → Prop
  | _, [] => True
  | unread, data :: events =>
    unread.length + data.length ≤ maxBufferSize ∧
      Fits (packetFramer.drain (unread ++ data)).2 events

theorem length_drain (buffer : List Byte) :
    ((packetFramer.drain buffer).1.flatMap buildPacket).length +
      (packetFramer.drain buffer).2.length = buffer.length := by
  induction buffer using packetFramer.drain_induction with
  | hnone buffer hnext =>
    rw [packetFramer.drain_of_none hnext]
    exact Nat.zero_add _
  | hsome buffer packet rest hnext ih =>
    rw [packetFramer.drain_of_some hnext, flatMap_cons, length_append,
      Nat.add_assoc, ih, length_of_parsePacket hnext]

variable {unread data : List Byte} {env : Env} {side : Side} {events : List DataEvent}

theorem Parser.feed_of_le (hroom : unread.length + data.length ≤ maxBufferSize) :
    feed ⟨unread⟩ data = ((packetFramer.drain (unread ++ data)).1,
      ⟨(packetFramer.drain (unread ++ data)).2⟩) := by
  rw [feed, append, if_neg (Nat.not_lt.2 hroom)]

theorem Parser.feed_of_lt (hfull : maxBufferSize < unread.length + data.length) :
    feed ⟨unread⟩ data = ([], ⟨[]⟩) := by
  rw [feed, append, if_pos hfull]

/-- No packet comes from nowhere. -/
theorem length_feedAll_le (unread : List Byte) (events : List (List Byte)) :
    ((feedAll ⟨unread⟩ events).flatMap buildPacket).length ≤
      unread.length + events.flatten.length := by
  induction events generalizing unread with
  | nil => exact Nat.zero_le _
  | cons data events ih =>
    rw [feedAll, flatMap_append, length_append, flatten_cons, length_append]
    by_cases hroom : unread.length + data.length ≤ maxBufferSize
    · have hdrain := length_drain (unread ++ data)
      have hrest := ih (packetFramer.drain (unread ++ data)).2
      rw [length_append] at hdrain
      rw [feed_of_le hroom]
      dsimp only
      omega
    · have hrest := ih []
      rw [length_nil] at hrest
      rw [feed_of_lt (Nat.lt_of_not_le hroom), flatMap_nil, length_nil]
      dsimp only
      omega

/-- Events that end with a packet yield all packets of their bytes if and only if each
event fits: what does not fit takes bytes with it that no packet has. -/
theorem feedAll_eq_drain_iff (events : List (List Byte)) :
    ∀ unread : List Byte, packetFramer.next unread = none →
      (packetFramer.drain (unread ++ events.flatten)).2 = [] →
      (feedAll ⟨unread⟩ events = (packetFramer.drain (unread ++ events.flatten)).1 ↔
        Fits unread events) := by
  induction events with
  | nil =>
    intro unread hnext _
    rw [flatten_nil, append_nil, packetFramer.drain_of_none hnext]
    exact iff_of_true rfl trivial
  | cons data events ih =>
    intro unread _ hend
    have hwhole := length_drain (unread ++ (data :: events).flatten)
    rw [flatten_cons, ← append_assoc] at hend hwhole ⊢
    by_cases hroom : unread.length + data.length ≤ maxBufferSize
    · rw [packetFramer.drain_append] at hend ⊢
      rw [feedAll, feed_of_le hroom, append_cancel_left_eq, Fits,
        ih _ (packetFramer.next_drain_snd _) hend, and_iff_right hroom]
    · apply iff_of_false
      · intro heq
        have hless := length_feedAll_le [] events
        rw [feedAll, feed_of_lt (Nat.lt_of_not_le hroom), nil_append] at heq
        rw [heq] at hless
        rw [hend, length_nil, length_append, length_append] at hwhole
        rw [length_nil] at hless
        omega
      · exact fun hfits => hroom hfits.1

/-- However a stream of packets is cut into events, it yields its packets if and only if
each event fits behind the bytes of the packet that is incomplete then. -/
theorem chunks_yield_packets_iff (packets : List Packet)
    (hpackets : ∀ packet ∈ packets, packet.payload.length < 2 ^ 24 - 1)
    (events : List (List Byte)) (hevents : events.flatten = packets.flatMap buildPacket) :
    Parser.feedAll {} events = packets ↔ Fits [] events := by
  have hdrain : packetFramer.drain events.flatten = (packets, []) := by
    rw [hevents]
    apply packetFramer_encodes.drain_flatMap
    exact fun packet hpacket => Nat.lt_of_lt_pred (hpackets packet hpacket)
  have hyield := feedAll_eq_drain_iff events [] packetFramer.next_nil
  rw [nil_append, hdrain] at hyield
  exact hyield rfl

theorem chunks_yield_packets_ping : Parser.feedAll {} [[1, 0, 0], [0, 14]] = [⟨0, [14]⟩] :=
  (chunks_yield_packets_iff [⟨0, [14]⟩] (by decide) [[1, 0, 0], [0, 14]] (by decide)).mpr
    ⟨by decide, by decide, trivial⟩

/-! ## Events that fit -/

theorem fits_append (hnext : packetFramer.next unread = none) (before after : List (List Byte)) :
    Fits unread (before ++ after) ↔
      Fits unread before ∧ Fits (packetFramer.drain (unread ++ before.flatten)).2 after := by
  induction before generalizing unread with
  | nil =>
    rw [flatten_nil, append_nil, packetFramer.drain_of_none hnext]
    exact (and_iff_right trivial).symm
  | cons data before ih =>
    rw [cons_append, Fits, Fits, ih (packetFramer.next_drain_snd _), flatten_cons,
      ← append_assoc, packetFramer.drain_append (unread ++ data), and_assoc]

theorem fits_of_length_le {events : List (List Byte)}
    (hlength : unread.length + events.flatten.length ≤ maxBufferSize) : Fits unread events := by
  induction events generalizing unread with
  | nil => trivial
  | cons data events ih =>
    have hdrain := packetFramer.length_drain_le (unread ++ data)
    rw [flatten_cons, length_append] at hlength
    rw [length_append] at hdrain
    exact ⟨by omega, ih (by omega)⟩

/-- Events that leave a packet incomplete, and one more that does not fit behind them. -/
theorem not_fits_of_incomplete {before : List (List Byte)} {length more : ℕ}
    (hnext : packetFramer.next before.flatten = none) (hlength : before.flatten.length = length)
    (hmore : data.length = more) (hover : maxBufferSize < length + more) :
    ¬ Fits [] (before ++ [data]) := by
  rw [fits_append packetFramer.next_nil, nil_append, packetFramer.drain_of_none hnext, Fits,
    hlength, hmore]
  exact fun hfits => absurd hfits.2.1 (Nat.not_le.2 hover)

/-- Zeros in events of the largest size, and `count` more. -/
def zeroEvents (count : ℕ) : List (List Byte) :=
  List.replicate 546 (List.replicate 30720 0) ++ [List.replicate count 0]

theorem flatten_zeroEvents (count : ℕ) :
    (zeroEvents count).flatten = List.replicate (16773120 + count) 0 := by
  rw [zeroEvents, flatten_append, flatten_replicate_replicate, flatten_singleton,
    replicate_append_replicate]

theorem length_le_of_mem_zeroEvents {count : ℕ} (hcount : count ≤ 30720) :
    ∀ data ∈ zeroEvents count, data.length ≤ 30720 := by
  rw [zeroEvents, forall_mem_append, forall_mem_singleton, length_replicate]
  refine ⟨fun data hdata => ?_, hcount⟩
  rw [eq_of_mem_replicate hdata, length_replicate]

/-- The longest packet, in events that lack its last byte. -/
def longPacket : Packet := ⟨0, List.replicate 16777214 0⟩

def longPacketEvents : List (List Byte) := (leBytes 3 16777214 ++ [0]) :: zeroEvents 4093

theorem flatten_longPacketEvents : longPacketEvents.flatten ++ [0] = buildPacket longPacket := by
  have hlength : longPacket.payload.length = 16777214 := length_replicate
  have hzeros : longPacket.payload = List.replicate 16777213 0 ++ [0] := replicate_succ'
  rw [longPacketEvents, flatten_cons, flatten_zeroEvents, buildPacket, hlength, hzeros]
  rfl

theorem length_flatten_longPacketEvents : longPacketEvents.flatten.length = 16777217 := by
  have hlength := congrArg List.length flatten_longPacketEvents
  have hpayload : longPacket.payload.length = 16777214 := length_replicate
  rw [length_append, length_buildPacket, hpayload] at hlength
  exact Nat.add_right_cancel hlength

theorem next_longPacketEvents : packetFramer.next longPacketEvents.flatten = none := by
  apply packetFramer_encodes.next_isPrefix _ (cons_ne_nil _ _) flatten_longPacketEvents
  have hpayload : longPacket.payload.length = 16777214 := length_replicate
  rw [hpayload]
  norm_num

/-- The last byte of the packet comes in one event with a ping that does not fit: both are
lost. -/
theorem longPacket_not_yielded :
    (∀ packet ∈ [longPacket, ⟨0, [14]⟩], packet.payload.length < 2 ^ 24 - 1) ∧
      (∀ data ∈ longPacketEvents ++ [0 :: buildPacket ⟨0, [14]⟩], data.length ≤ 30720) ∧
      (longPacketEvents ++ [0 :: buildPacket ⟨0, [14]⟩]).flatten =
        [longPacket, ⟨0, [14]⟩].flatMap buildPacket ∧
      Parser.feedAll {} (longPacketEvents ++ [0 :: buildPacket ⟨0, [14]⟩]) ≠
        [longPacket, ⟨0, [14]⟩] := by
  have hpayload : longPacket.payload.length = 16777214 := length_replicate
  have hpackets : ∀ packet ∈ [longPacket, ⟨0, [14]⟩], packet.payload.length < 2 ^ 24 - 1 := by
    rw [forall_mem_cons, hpayload]
    exact ⟨by norm_num, by decide⟩
  have hflatten : (longPacketEvents ++ [0 :: buildPacket ⟨0, [14]⟩]).flatten =
      [longPacket, ⟨0, [14]⟩].flatMap buildPacket := by
    rw [flatten_append, flatten_singleton, flatMap_cons, flatMap_singleton,
      ← flatten_longPacketEvents, append_assoc, singleton_append]
  have hdrain : packetFramer.drain (longPacketEvents ++ [0 :: buildPacket ⟨0, [14]⟩]).flatten =
      ([longPacket, ⟨0, [14]⟩], []) := by
    rw [hflatten]
    apply packetFramer_encodes.drain_flatMap
    exact fun packet hpacket => Nat.lt_of_lt_pred (hpackets packet hpacket)
  refine ⟨hpackets, ?_, hflatten, ?_⟩
  · rw [longPacketEvents, cons_append, forall_mem_cons, forall_mem_append]
    exact ⟨by decide, length_le_of_mem_zeroEvents (by norm_num), by decide⟩
  · intro hyield
    have hfits := feedAll_eq_drain_iff (longPacketEvents ++ [0 :: buildPacket ⟨0, [14]⟩]) []
      packetFramer.next_nil
    rw [nil_append, hdrain] at hfits
    have hping : (0 :: buildPacket ⟨0, [14]⟩).length = 6 := by decide
    exact not_fits_of_incomplete next_longPacketEvents length_flatten_longPacketEvents hping
      (by decide) ((hfits rfl).1 hyield)

/-! ## Payloads of several packets -/

/-- A payload as the protocol sends it: packets of the largest size, then a shorter one. -/
def physicalPackets (sequenceID : Byte) (payload : List Byte) : List Packet :=
  if payload.length < 2 ^ 24 - 1 then [⟨sequenceID, payload⟩]
  else
    ⟨sequenceID, payload.take (2 ^ 24 - 1)⟩ ::
      physicalPackets (sequenceID + 1) (payload.drop (2 ^ 24 - 1))
termination_by payload.length
decreasing_by
  have hpositive : 0 < payload.length := by omega
  exact length_drop .. ▸ Nat.sub_lt hpositive (by norm_num)

theorem length_of_mem_physicalPackets (sequenceID : Byte) (payload : List Byte) :
    ∀ packet ∈ physicalPackets sequenceID payload, packet.payload.length < 2 ^ 24 := by
  induction sequenceID, payload using physicalPackets.induct with
  | case1 sequenceID payload hshort =>
    rw [physicalPackets, if_pos hshort, forall_mem_singleton]
    exact Nat.lt_of_lt_pred hshort
  | case2 sequenceID payload hlong ih =>
    rw [physicalPackets, if_neg hlong, forall_mem_cons]
    refine ⟨?_, ih⟩
    rw [length_take]
    omega

/-- Whatever the events of one side carry, the stream handles the packets one by one. -/
theorem run_of_flows {start : Stream} {packets : List Packet}
    (hpackets : ∀ packet ∈ packets, packet.payload.length < 2 ^ 24) (hopen : start.closed = false)
    (hunread : start.unread.of side = []) (hflows : ∀ event ∈ events, flows env side event)
    (hbytes : bytesFrom env side events = packets.flatMap buildPacket)
    (hfits : start.unread.fitsAll env events) :
    (start.run env events).toCorrelation =
      (arrivalsFrom side packets).foldl (handle env) start.toCorrelation := by
  have hsent : sentBy side (start.unread.arrivals env events) = packets := by
    rw [sentBy_arrivals env side events _ (hunread ▸ packetFramer.next_nil), hunread,
      nil_append, hbytes, packetFramer_encodes.drain_flatMap packets hpackets]
  rw [Stream.run_eq_foldl_arrivals env events start hopen hfits, arrivals_of_flows hflows, hsent]

/-- A payload of the largest size of a packet and an empty packet behind it count once. -/
theorem foldl_physicalPackets_of_largest {payload : List Byte}
    (hlength : payload.length = 2 ^ 24 - 1) (env : Env) (side : Side) (sequenceID : Byte)
    (state : Correlation) :
    (arrivalsFrom side (physicalPackets sequenceID payload)).foldl (handle env) state =
      state.handle env ⟨side, ⟨sequenceID, payload⟩⟩ := by
  have hlong : ¬ payload.length < 2 ^ 24 - 1 := by omega
  have hend : payload.drop (2 ^ 24 - 1) = [] := drop_eq_nil_of_le hlength.le
  rw [physicalPackets, if_neg hlong, hend, physicalPackets, take_of_length_le hlength.le]
  cases side <;> rfl

theorem handleRequest_command {state : Correlation} {packet : Packet}
    (hhandshake : state.handshakeComplete = true) :
    (state.handleRequest env packet).handshakeComplete = true ∧
      (state.handleRequest env packet).now = state.now + if packet.payload = [] then 0 else 1 := by
  rw [handleRequest]
  split_ifs with hempty hphase
  · exact ⟨hhandshake, rfl⟩
  · rw [hhandshake] at hphase
    cases hphase
  · obtain ⟨_, _, hpayload⟩ := exists_cons_of_ne_nil hempty
    rw [parseCommand, hpayload]
    dsimp only [Exec.ok, queueCommand, enqueue]
    split_ifs <;> exact ⟨hhandshake, rfl⟩

/-- As many commands as the payload has nonempty packets. -/
theorem now_foldl_physicalPackets (env : Env) (sequenceID : Byte) (payload : List Byte) :
    ∀ state : Correlation, state.handshakeComplete = true →
      ((arrivalsFrom .client (physicalPackets sequenceID payload)).foldl
          (handle env) state).now =
        state.now + (payload.length + (2 ^ 24 - 2)) / (2 ^ 24 - 1) := by
  induction sequenceID, payload using physicalPackets.induct with
  | case1 sequenceID payload hshort =>
    intro state hhandshake
    rw [physicalPackets, if_pos hshort, Stream.foldl_arrivalsFrom_client, foldl_cons,
      foldl_nil, (handleRequest_command hhandshake).2]
    split_ifs with hempty
    · dsimp only at hempty
      rw [hempty]
      rfl
    · have hpositive := length_pos_of_ne_nil hempty
      dsimp only at hpositive
      omega
  | case2 sequenceID payload hlong ih =>
    intro state hhandshake
    have hfirst : payload.take (2 ^ 24 - 1) ≠ [] := by
      apply ne_nil_of_length_pos
      rw [length_take]
      omega
    obtain ⟨hkept, hnow⟩ := @handleRequest_command env state
      ⟨sequenceID, payload.take (2 ^ 24 - 1)⟩ hhandshake
    rw [if_neg hfirst] at hnow
    rw [physicalPackets, if_neg hlong]
    have hrest := ih _ hkept
    rw [length_drop] at hrest
    refine hrest.trans ?_
    omega

theorem fitsAll_iff_fits (hflows : ∀ event ∈ events, flows env side event) (unread : Unread) :
    unread.fitsAll env events = true ↔ Fits (unread.of side) (events.map DataEvent.data) := by
  induction events generalizing unread with
  | nil => exact iff_of_true rfl trivial
  | cons event events ih =>
    rw [forall_mem_cons] at hflows
    rw [Unread.fitsAll, Bool.and_eq_true, ih hflows.2, Unread.fits_of_flows hflows.1,
      (Unread.feed_of_flows hflows.1 unread).2, decide_eq_true_iff, map_cons, Fits]

theorem bytesFrom_of_flows (hflows : ∀ event ∈ events, flows env side event) :
    bytesFrom env side events = (events.map DataEvent.data).flatten := by
  have hfilter : events.filter (flows env side) = events := filter_eq_self.2 hflows
  exact congrArg (List.flatMap DataEvent.data) hfilter

theorem physicalPackets_append {first last : List Byte} (hfirst : first.length = 2 ^ 24 - 1)
    (hlast : last.length < 2 ^ 24 - 1) (sequenceID : Byte) :
    physicalPackets sequenceID (first ++ last) = [⟨sequenceID, first⟩, ⟨sequenceID + 1, last⟩] := by
  have hlong : ¬ (first ++ last).length < 2 ^ 24 - 1 := by
    rw [length_append]
    omega
  rw [physicalPackets, if_neg hlong, take_left' hfirst, drop_left' hfirst,
    physicalPackets, if_pos hlast]

/-- A connection after its handshake. -/
def ready : Stream := { handshakeComplete := true }

/-- Events of the client. -/
def clientEvents (blocks : List (List Byte)) : List DataEvent := blocks.map (DataEvent.mk .egress)

theorem flows_clientEvents (blocks : List (List Byte)) :
    ∀ event ∈ clientEvents blocks, flows clientSide .client event :=
  forall_mem_map.2 fun _ _ => rfl

theorem data_clientEvents (blocks : List (List Byte)) :
    (clientEvents blocks).map DataEvent.data = blocks := by
  rw [clientEvents, map_map]
  exact map_id blocks

/-- A query of 2^24 bytes: what its second packet holds is taken for a ping. -/
theorem query_counts_twice {text : List Byte} {blocks : List (List Byte)}
    (htext : text.length = 2 ^ 24 - 2) (hblocks : blocks.flatten = buildPacket ⟨0, 3 :: text⟩) :
    bytesFrom clientSide .client (clientEvents (blocks ++ [buildPacket ⟨1, [14]⟩])) =
        (physicalPackets 0 ((3 :: text) ++ [14])).flatMap buildPacket ∧
      ready.unread.fitsAll clientSide (clientEvents (blocks ++ [buildPacket ⟨1, [14]⟩])) ∧
      (ready.run clientSide (clientEvents (blocks ++ [buildPacket ⟨1, [14]⟩]))).pendingCommands.map
          PendingCommand.commandType = [3, 14] := by
  have hflows := flows_clientEvents (blocks ++ [buildPacket ⟨1, [14]⟩])
  have hfirst : (3 :: text).length = 2 ^ 24 - 1 := by
    rw [length_cons, htext]
    norm_num
  have hpackets := physicalPackets_append hfirst (by norm_num : [(14 : Byte)].length < 2 ^ 24 - 1) 0
  have hbytes : bytesFrom clientSide .client (clientEvents (blocks ++ [buildPacket ⟨1, [14]⟩])) =
        (physicalPackets 0 ((3 :: text) ++ [14])).flatMap buildPacket := by
    rw [bytesFrom_of_flows hflows, data_clientEvents, flatten_append, hblocks, hpackets]
    rfl
  have hdrain : packetFramer.drain blocks.flatten = ([⟨0, 3 :: text⟩], []) := by
    rw [hblocks, ← flatMap_singleton buildPacket]
    apply packetFramer_encodes.drain_flatMap
    rw [forall_mem_singleton, hfirst]
    norm_num
  have hfits : ready.unread.fitsAll clientSide
      (clientEvents (blocks ++ [buildPacket ⟨1, [14]⟩])) := by
    rw [fitsAll_iff_fits hflows, data_clientEvents]
    apply (fits_append packetFramer.next_nil blocks _).2
    rw [nil_append, hdrain]
    refine ⟨fits_of_length_le ?_, ⟨by dsimp only; decide, trivial⟩⟩
    rw [hblocks, length_buildPacket, hfirst]
    decide
  refine ⟨hbytes, hfits, ?_⟩
  rw [run_of_flows (length_of_mem_physicalPackets 0 _) rfl rfl hflows hbytes hfits, hpackets]
  rfl

/-- A query of zeros in events of at most 30720 bytes. -/
def queryBlocks (count : ℕ) : List (List Byte) :=
  (leBytes 3 (16773120 + count + 1) ++ [0, 3]) :: zeroEvents count

theorem flatten_queryBlocks (count : ℕ) :
    (queryBlocks count).flatten = buildPacket ⟨0, 3 :: List.replicate (16773120 + count) 0⟩ := by
  rw [queryBlocks, flatten_cons, flatten_zeroEvents, buildPacket, length_cons, length_replicate]
  rfl

theorem length_le_of_mem_queryBlocks {count : ℕ} (hcount : count ≤ 30720) :
    ∀ data ∈ queryBlocks count, data.length ≤ 30720 := by
  rw [queryBlocks, forall_mem_cons]
  refine ⟨?_, length_le_of_mem_zeroEvents hcount⟩
  norm_num

theorem length_queryBlocks_text :
    (List.replicate (16773120 + 4094) (0 : Byte)).length = 2 ^ 24 - 2 := by
  norm_num

end Qtap.Mysql
