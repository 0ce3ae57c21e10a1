import Qtap.Redis.Correlation

/-!
# Commands and values on the wire

Whenever the k-th reply is complete no earlier than the k-th command, replies are
reported with the commands in their position, for every cut of the bytes into events and
every interleaving of the directions.  An array whose first string is empty is no command
for the stream, and its reply goes to the next one.  Push values are replies like any
other: they disturb no pair only when they arrive while no command waits.
-/

namespace Qtap.Redis

open Redis.Stream List Qtap.Core Qtap.Connection

/-- The value that `Parse` returns for exactly these bytes. -/
def Denotes (parseFloat : List Byte → Option UInt64) (bytes : List Byte) (value : Value) : Prop :=
  (Parser.parse parseFloat { buffer := bytes }).outcome = .ok (value, { buffer := [] })

/-- The client sends the commands and the server complete values, cut into events and
interleaved in any way. -/
structure Delivery (parseFloat : List Byte → Option UInt64) (source : Source)
    (commands : List (Command × List Byte)) (values : List (List Byte))
    (events : List DataEvent) : Prop where
  commands_encoded : ∀ sent ∈ commands, IsCommand sent.1 sent.2
  values_complete : ∀ bytes ∈ values, Frame parseFloat bytes bytes.length
  request_bytes : bytesFrom source .client events = (commands.map Prod.snd).flatten
  response_bytes : bytesFrom source .server events = values.flatten
  fits : ∀ side, (bytesFrom source side events).length ≤ maxAlloc

/-- At no time have more values arrived than commands. -/
def InOrder (source : Source) (commands : List (Command × List Byte)) (values : List (List Byte))
    (events : List DataEvent) : Prop :=
  ∀ before, before <+: events →
    arrived source .server values before ≤ arrived source .client (commands.map Prod.snd) before

def isPush (bytes : List Byte) : Bool := kindOf bytes = some .push

def withoutPushes (values : List (List Byte)) : List (List Byte) :=
  values.filter fun bytes => !isPush bytes

/-- Replies arrive after their commands, and whenever a push arrives, every command that
has arrived has had its reply. -/
structure PushesApart (source : Source) (commands : List (Command × List Byte))
    (values : List (List Byte)) (events : List DataEvent) : Prop where
  replies_in_order : ∀ before, before <+: events →
    (withoutPushes (values.take (arrived source .server values before))).length ≤
      arrived source .client (commands.map Prod.snd) before
  pushes_idle : ∀ before event, before ++ [event] <+: events →
    ∀ index bytes, values[index]? = some bytes → isPush bytes = true →
    arrived source .server values before ≤ index →
    index < arrived source .server values (before ++ [event]) →
    arrived source .client (commands.map Prod.snd) before ≤
      (withoutPushes (values.take index)).length

section Delivered

variable {parseFloat : List Byte → Option UInt64}

/-- Bytes beside the value they denote; what denotes nothing gets a null. -/
def withValue (parseFloat : List Byte → Option UInt64) (bytes : List Byte) : List Byte × Value :=
  (bytes, (((respFramer parseFloat).next bytes).map Prod.fst).getD { type := .null })

variable {bytes : List Byte}

theorem withValue_of_reads {value : Value} (hreads : (respFramer parseFloat).Reads bytes value) :
    withValue parseFloat bytes = (bytes, value) := by
  rw [withValue, hreads]
  rfl

theorem map_fst_withValue (pieces : List (List Byte)) :
    (pieces.map (withValue parseFloat)).map Prod.fst = pieces := by
  rw [map_map]
  exact map_id pieces

theorem flatMap_withValue (pieces : List (List Byte)) :
    (pieces.map (withValue parseFloat)).flatMap Prod.fst = pieces.flatten := by
  rw [List.flatMap, map_fst_withValue]

variable {source : Source} {commands : List (Command × List Byte)} {values : List (List Byte)}
  {events : List DataEvent}

namespace Delivery

variable (hdelivery : Delivery parseFloat source commands values events)

include hdelivery

theorem value_fits (hbytes : bytes ∈ values) : bytes.length ≤ maxAlloc := by
  have hfits := hdelivery.fits .server
  rw [hdelivery.response_bytes] at hfits
  exact (sublist_flatten_of_mem hbytes).length_le.trans hfits

theorem command_fits {sent : Command × List Byte} (hsent : sent ∈ commands) :
    sent.2.length ≤ maxAlloc := by
  have hfits := hdelivery.fits .client
  rw [hdelivery.request_bytes] at hfits
  exact (sublist_flatten_of_mem (mem_map_of_mem hsent)).length_le.trans hfits

theorem value_reads (hbytes : bytes ∈ values) :
    (respFramer parseFloat).Reads bytes (withValue parseFloat bytes).2 := by
  obtain ⟨_, hreads⟩ :=
    reads_of_frame (hdelivery.value_fits hbytes) (hdelivery.values_complete bytes hbytes)
  rw [withValue_of_reads hreads]
  exact hreads

variable (hnamed : ∀ sent ∈ commands, sent.1.name ≠ [])

include hnamed

theorem command_reads {sent : Command × List Byte} (hsent : sent ∈ commands) :
    (respFramer parseFloat).Reads sent.2 (withValue parseFloat sent.2).2 ∧
      (withValue parseFloat sent.2).2.toCommand = some sent.1 := by
  obtain ⟨_, hreads, hcommand⟩ := reads_command parseFloat
    (hdelivery.commands_encoded sent hsent) (hdelivery.command_fits hsent) (hnamed sent hsent)
  rw [withValue_of_reads hreads]
  exact ⟨hreads, hcommand⟩

/-- The bytes of a delivery as a conversation in values. -/
theorem conversation :
    Conversation parseFloat source ((commands.map Prod.snd).map (withValue parseFloat))
      (values.map (withValue parseFloat)) events where
  requests_read := by
    rw [map_map, forall_mem_map]
    exact fun sent hsent => (hdelivery.command_reads hnamed hsent).1
  requests_named := by
    rw [map_map, forall_mem_map]
    exact fun sent hsent => Option.isSome_of_eq_some (hdelivery.command_reads hnamed hsent).2
  responses_read := forall_mem_map.2 fun _ hbytes => hdelivery.value_reads hbytes
  request_bytes := by rw [hdelivery.request_bytes, flatMap_withValue]
  response_bytes := by rw [hdelivery.response_bytes, flatMap_withValue]

theorem commands_read :
    (((commands.map Prod.snd).map (withValue parseFloat)).map Prod.snd).filterMap
      Value.toCommand = commands.map Prod.fst := by
  rw [map_map, map_map, filterMap_map, ← filterMap_eq_map]
  apply filterMap_congr
  intro sent hsent
  exact (hdelivery.command_reads hnamed hsent).2

end Delivery

theorem expectedValues_false (list : List Value) : expectedValues (fun _ => false) list = list :=
  filter_eq_self.2 fun _ _ => rfl

/-- Pairs of a delivery in which no command is overtaken by its reply. -/
theorem Delivery.run_of_inOrder (env : Env)
    (hdelivery : Delivery parseFloat env.source commands values events)
    (hnamed : ∀ sent ∈ commands, sent.1.name ≠ [])
    (horder : InOrder env.source commands values events) :
    (run parseFloat env {} events).pairs =
        (commands.map Prod.fst).zip ((values.map (withValue parseFloat)).map Prod.snd) ∧
      (run parseFloat env {} events).pending =
        (commands.map Prod.fst).drop values.length := by
  have htalk := hdelivery.conversation hnamed
  have horderly : Orderly (fun _ => false)
      ((arrivals parseFloat env.source events).filterMap moveOf) := by
    apply htalk.orderly_moves
    · intro before hbefore
      rw [expectedValues_false, map_fst_withValue, map_fst_withValue]
      exact (length_take_le _ _).trans (horder before hbefore)
    · exact fun _ _ _ _ _ _ hstray => nomatch hstray
  have hrun := htalk.run_eq env rfl hdelivery.fits horderly
  rw [expectedValues_false, hdelivery.commands_read hnamed] at hrun
  simpa using hrun

/-- A push on the wire is a push value. -/
theorem isPush_of_reads {value : Value} (hreads : (respFramer parseFloat).Reads bytes value) :
    isPush bytes = decide (value.type = .push) := by
  rw [isPush, kindOf_of_reads hreads]
  simp

theorem expectedValues_withValue {list : List (List Byte)}
    (hlist : ∀ bytes ∈ list, (respFramer parseFloat).Reads bytes (withValue parseFloat bytes).2) :
    expectedValues (fun value => decide (value.type = .push))
        ((list.map (withValue parseFloat)).map Prod.snd) =
      ((withoutPushes list).map (withValue parseFloat)).map Prod.snd := by
  rw [map_map, map_map, expectedValues, filter_map]
  congr 1
  apply filter_congr
  intro bytes hbytes
  rw [isPush_of_reads (hlist bytes hbytes)]
  rfl

/-- Pairs of a delivery whose pushes arrive while no command waits. -/
theorem Delivery.run_of_pushesApart (env : Env)
    (hdelivery : Delivery parseFloat env.source commands values events)
    (hnamed : ∀ sent ∈ commands, sent.1.name ≠ [])
    (hapart : PushesApart env.source commands values events) :
    (run parseFloat env {} events).pairs = (commands.map Prod.fst).zip
      (((withoutPushes values).map (withValue parseFloat)).map Prod.snd) := by
  have htalk := hdelivery.conversation hnamed
  have htake : ∀ count, expectedValues (fun value => decide (value.type = .push))
      (((values.map (withValue parseFloat)).map Prod.snd).take count) =
      ((withoutPushes (values.take count)).map (withValue parseFloat)).map Prod.snd := by
    intro count
    rw [← map_take, ← map_take]
    apply expectedValues_withValue
    exact fun bytes hbytes => hdelivery.value_reads (mem_of_mem_take hbytes)
  have horderly : Orderly (fun value => decide (value.type = .push))
      ((arrivals parseFloat env.source events).filterMap moveOf) := by
    apply htalk.orderly_moves
    · intro before hbefore
      rw [map_fst_withValue, map_fst_withValue, htake, length_map, length_map]
      exact hapart.replies_in_order before hbefore
    · intro before event hevents index value hvalue hpush hearlier hlater
      rw [map_fst_withValue] at hearlier hlater
      rw [map_fst_withValue, htake, length_map, length_map]
      rw [map_map, List.getElem?_map] at hvalue
      obtain ⟨bytes, hbytes, rfl⟩ := Option.map_eq_some_iff.1 hvalue
      apply hapart.pushes_idle before event hevents index bytes hbytes _ hearlier hlater
      rw [isPush_of_reads (hdelivery.value_reads (mem_of_getElem? hbytes))]
      exact hpush
  have hrun := (htalk.run_eq env rfl hdelivery.fits horderly).1
  rwa [hdelivery.commands_read hnamed, expectedValues_withValue fun bytes hbytes =>
    hdelivery.value_reads hbytes] at hrun

end Delivered

/-! ## Concrete conversations -/

/-- A command of one letter and no arguments. -/
def letterCommand (letter : Byte) : Command × List Byte :=
  ({ name := [letter], args := [] }, [42, 49, 13, 10, 36, 49, 13, 10, letter, 13, 10])

/-- A simple string of one letter. -/
def letterReply (letter : Byte) : List Byte := [43, letter, 13, 10]

/-- A push value without elements. -/
def emptyPush : List Byte := [62, 48, 13, 10]

/-- The command whose name is the empty string. -/
def namelessCommand : Command × List Byte :=
  ({ name := [], args := [] }, [42, 49, 13, 10, 36, 48, 13, 10, 13, 10])

theorem isCommand_letter (letter : Byte) :
    IsCommand (letterCommand letter).1 (letterCommand letter).2 :=
  have hone : atoi [49] = some 1 := by decide
  have hroom : HasRoom .array 1 := by decide
  ⟨[49], [36, 49, 13, 10, letter, 13, 10], hone, @BulkStrings.cons [49] [letter] [] [] hone .nil,
    hroom, rfl⟩

theorem isCommand_nameless : IsCommand namelessCommand.1 namelessCommand.2 :=
  ⟨[49], [36, 48, 13, 10, 13, 10], by decide,
    @BulkStrings.cons [48] [] [] [] (by decide) .nil, by decide, rfl⟩

theorem frame_letter (parseFloat : List Byte → Option UInt64) {letter : Byte}
    (hletter : letter ≠ 13) :
    Frame parseFloat (letterReply letter) (letterReply letter).length := by
  have hline : indexCRLF [43, letter] = none :=
    indexCRLF_cons (by decide) (indexCRLF_cons hletter rfl)
  exact .line (kindOf_marker .simpleString _) rfl (indexCRLF_line hline [])

theorem frame_emptyPush (parseFloat : List Byte → Option UInt64) :
    Frame parseFloat emptyPush emptyPush.length :=
  @Frame.aggregate parseFloat emptyPush .push 2 0 0 (by decide) rfl (by decide) (by decide) .nil

/-- The commands in one event of the client and then the values in one of the server. -/
def twoEvents (commands : List (Command × List Byte)) (values : List (List Byte)) :
    List DataEvent :=
  [{ direction := .egress, data := (commands.map Prod.snd).flatten },
    { direction := .ingress, data := values.flatten }]

theorem bytesFrom_twoEvents {commands : List (Command × List Byte)} {values : List (List Byte)} :
    bytesFrom .client .client (twoEvents commands values) = (commands.map Prod.snd).flatten ∧
      bytesFrom .client .server (twoEvents commands values) = values.flatten := by
  constructor <;> exact flatten_singleton

variable {commands : List (Command × List Byte)} {values : List (List Byte)}

theorem inOrder_of_inits {source : Source} {events : List DataEvent}
    (horder : ∀ before ∈ events.inits, arrived source .server values before ≤
      arrived source .client (commands.map Prod.snd) before) :
    InOrder source commands values events :=
  fun before hbefore => horder before ((mem_inits _ _).2 hbefore)

theorem pushesApart_of_takes {source : Source} {events : List DataEvent}
    (horder : ∀ before ∈ events.inits,
      (withoutPushes (values.take (arrived source .server values before))).length ≤
        arrived source .client (commands.map Prod.snd) before)
    (hidle : ∀ count < events.length, ∀ index < values.length, (values[index]?).any isPush = true →
      arrived source .server values (events.take count) ≤ index →
      index < arrived source .server values (events.take (count + 1)) →
      arrived source .client (commands.map Prod.snd) (events.take count) ≤
        (withoutPushes (values.take index)).length) :
    PushesApart source commands values events where
  replies_in_order := fun before hbefore => horder before ((mem_inits _ _).2 hbefore)
  pushes_idle := by
    intro before event hevents index bytes hbytes hpush hearlier hlater
    have hbefore := prefix_iff_eq_take.1 ((prefix_append _ _).trans hevents)
    have hafter := prefix_iff_eq_take.1 hevents
    have hcount : before.length < events.length := by simpa using hevents.length_le
    have hindex : index < values.length := (List.getElem?_eq_some_iff.1 hbytes).1
    rw [length_append] at hafter
    rw [hafter] at hlater
    rw [hbefore] at hearlier ⊢
    apply hidle before.length hcount index hindex _ hearlier hlater
    rw [hbytes]
    exact hpush

theorem delivery_twoEvents {parseFloat : List Byte → Option UInt64}
    (hcommands : ∀ sent ∈ commands, IsCommand sent.1 sent.2)
    (hvalues : ∀ bytes ∈ values, Frame parseFloat bytes bytes.length)
    (hrequest : (commands.map Prod.snd).flatten.length ≤ maxAlloc)
    (hresponse : values.flatten.length ≤ maxAlloc) :
    Delivery parseFloat .client commands values (twoEvents commands values) where
  commands_encoded := hcommands
  values_complete := hvalues
  request_bytes := bytesFrom_twoEvents.1
  response_bytes := bytesFrom_twoEvents.2
  fits := by
    intro side
    cases side with
    | client =>
      rw [bytesFrom_twoEvents.1]
      exact hrequest
    | server =>
      rw [bytesFrom_twoEvents.2]
      exact hresponse

/-! ## Pairing -/

/-- The k-th reply is reported with the k-th command, and the commands without reply are
left in the queue. -/
theorem replies_reported_in_order (parseFloat : List Byte → Option UInt64) (env : Env)
    {commands : List (Command × List Byte)} {values : List (List Byte)} {events : List DataEvent}
    (hdelivery : Delivery parseFloat env.source commands values events)
    (hnamed : ∀ sent ∈ commands, sent.1.name ≠ [])
    (horder : InOrder env.source commands values events) :
    ∃ replies, List.Forall₂ (Denotes parseFloat) values replies ∧
      (Stream.run parseFloat env {} events).pairs = (commands.map Prod.fst).zip replies ∧
      (Stream.run parseFloat env {} events).pending =
        (commands.map Prod.fst).drop replies.length := by
  refine ⟨(values.map (withValue parseFloat)).map Prod.snd, ?_, ?_⟩
  · rw [map_map, forall₂_map_right_iff, forall₂_same]
    intro bytes hbytes
    exact (next_eq_some_iff (hdelivery.value_fits hbytes)).1 (hdelivery.value_reads hbytes)
  · have hrun := hdelivery.run_of_inOrder env hnamed horder
    rwa [← length_map (withValue parseFloat), ← length_map Prod.snd] at hrun

theorem replies_reported_in_order_two :
    ∃ replies, List.Forall₂ (Denotes fun _ => none) [letterReply 97, letterReply 98] replies ∧
      (Stream.run (fun _ => none) { source := .client } {} (twoEvents
        [letterCommand 65, letterCommand 66, letterCommand 67]
        [letterReply 97, letterReply 98])).pairs =
          [(letterCommand 65).1, (letterCommand 66).1, (letterCommand 67).1].zip replies ∧
      (run (fun _ => none) { source := .client } {} (twoEvents
        [letterCommand 65, letterCommand 66, letterCommand 67]
        [letterReply 97, letterReply 98])).pending =
          [(letterCommand 65).1, (letterCommand 66).1, (letterCommand 67).1].drop
            replies.length := by
  refine replies_reported_in_order (fun _ => none) { source := .client }
    (delivery_twoEvents ?_ ?_ (by decide) (by decide)) (by decide) ?_
  · simp [isCommand_letter]
  · simp [frame_letter]
  · exact inOrder_of_inits (by decide)

/-- The reply to a command without a name is reported with the next command. -/
theorem nameless_command_shifts_pairs :
    Delivery (fun _ => none) .client [namelessCommand, letterCommand 66]
        [letterReply 97, letterReply 98]
        (twoEvents [namelessCommand, letterCommand 66] [letterReply 97, letterReply 98]) ∧
      InOrder .client [namelessCommand, letterCommand 66] [letterReply 97, letterReply 98]
        (twoEvents [namelessCommand, letterCommand 66] [letterReply 97, letterReply 98]) ∧
      (Stream.run (fun _ => none) { source := .client } {} (twoEvents
        [namelessCommand, letterCommand 66] [letterReply 97, letterReply 98])).pairs.map
          (fun pair => (pair.1, pair.2.str)) = [((letterCommand 66).1, [97])] := by
  refine ⟨delivery_twoEvents ?_ ?_ (by decide) (by decide), inOrder_of_inits (by decide), by decide⟩
  · simp [isCommand_letter, isCommand_nameless]
  · simp [frame_letter]

/-! ## Pushes -/

/-- Pushes that arrive while no command waits change no pair. -/
theorem pushes_apart_change_no_pair (parseFloat : List Byte → Option UInt64) (env : Env)
    {commands : List (Command × List Byte)} {replies : List (List Byte)} (values : List (List Byte))
    {plain mixed : List DataEvent} (hplain : Delivery parseFloat env.source commands replies plain)
    (hmixed : Delivery parseFloat env.source commands values mixed)
    (hnamed : ∀ sent ∈ commands, sent.1.name ≠ []) (hinserted : withoutPushes values = replies)
    (horder : InOrder env.source commands replies plain)
    (hapart : PushesApart env.source commands values mixed) :
    (Stream.run parseFloat env {} mixed).pairs = (Stream.run parseFloat env {} plain).pairs := by
  rw [hmixed.run_of_pushesApart env hnamed hapart, hinserted,
    (hplain.run_of_inOrder env hnamed horder).1]

/-- A push before the only command. -/
theorem pushes_apart_change_no_pair_first :
    (Stream.run (fun _ => none) { source := .client } {}
      ({ direction := .ingress, data := emptyPush } ::
        twoEvents [letterCommand 65] [letterReply 97])).pairs =
      (run (fun _ => none) { source := .client } {}
        (twoEvents [letterCommand 65] [letterReply 97])).pairs := by
  refine pushes_apart_change_no_pair (fun _ => none) { source := .client }
    [emptyPush, letterReply 97] (delivery_twoEvents ?_ ?_ (by decide) (by decide))
    { commands_encoded := ?_, values_complete := ?_, request_bytes := by decide,
      response_bytes := by decide, fits := ?_ }
    (by decide) (by decide) (inOrder_of_inits (by decide))
    (pushesApart_of_takes (by decide) (by decide))
  · simp [isCommand_letter]
  · simp [frame_letter]
  · simp [isCommand_letter]
  · simp [frame_letter, frame_emptyPush]
  · intro side
    cases side <;> decide

/-- A push between the replies to two waiting commands is reported as the second reply. -/
theorem push_takes_waiting_command :
    Delivery (fun _ => none) .client [letterCommand 65, letterCommand 66]
        [letterReply 97, letterReply 98]
        (twoEvents [letterCommand 65, letterCommand 66] [letterReply 97, letterReply 98]) ∧
      Delivery (fun _ => none) .client [letterCommand 65, letterCommand 66]
        [letterReply 97, emptyPush, letterReply 98]
        (twoEvents [letterCommand 65, letterCommand 66]
          [letterReply 97, emptyPush, letterReply 98]) ∧
      withoutPushes [letterReply 97, emptyPush, letterReply 98] = [letterReply 97, letterReply 98] ∧
      (Stream.run (fun _ => none) { source := .client } {} (twoEvents
        [letterCommand 65, letterCommand 66] [letterReply 97, letterReply 98])).pairs.map
          (fun pair => (pair.1.name, pair.2.type, pair.2.str)) =
        [([65], .simpleString, [97]), ([66], .simpleString, [98])] ∧
      (run (fun _ => none) { source := .client } {} (twoEvents
        [letterCommand 65, letterCommand 66]
        [letterReply 97, emptyPush, letterReply 98])).pairs.map
          (fun pair => (pair.1.name, pair.2.type, pair.2.str)) =
        [([65], .simpleString, [97]), ([66], .push, [])] := by
  refine ⟨delivery_twoEvents ?_ ?_ (by decide) (by decide),
    delivery_twoEvents ?_ ?_ (by decide) (by decide), by decide, by decide,
    by decide⟩
  · simp [isCommand_letter]
  · simp [frame_letter]
  · simp [isCommand_letter]
  · simp [frame_letter, frame_emptyPush]

end Qtap.Redis
