import Qtap.Bpf.Net

/-!
# Protocol detection

The functions of `protocol.bpf.c`.  Each looks at the first bytes of a buffer; detection
tries them in a fixed order and records the first protocol that matches.
-/

namespace Qtap.Bpf

open Qtap.Core

/-- The first bytes of a buffer that is not null and has at least `least` bytes. -/
def peek (memory : Memory) (info : BufInfo) (count least size : ℕ) : Option (List Byte) :=
  if count < least ∨ info.buf = 0 then none else bufRead memory size info 0

def isDns (conn : ConnInfo) : Bool := conn.addr.port = 53

def mongodbOpcodes : List ℕ :=
  [1, 2001, 2002, 2003, 2004, 2005, 2006, 2007, 2010, 2011, 2012, 2013]

def detectMongodb (memory : Memory) (info : BufInfo) (count : ℕ) : Bool :=
  match peek memory info count 16 16 with
  | none => false
  | some hdr =>
    let msgLen := leValue (hdr.take 4)
    let opcode := leValue ((hdr.drop 12).take 4)
    opcode ∈ mongodbOpcodes && 16 ≤ msgLen && msgLen ≤ 50331648

def detectKafka (memory : Memory) (info : BufInfo) (count : ℕ) : Bool :=
  match peek memory info count 14 14 with
  | none => false
  | some hdr =>
    let length := beValue (hdr.take 4)
    let apiKey := beValue ((hdr.drop 4).take 2)
    let apiVersion := beValue ((hdr.drop 6).take 2)
    let corrId := beValue ((hdr.drop 8).take 4)
    if length < 8 ∨ length > 104857600 then false
    else if apiKey > 67 then false
    else if apiVersion > 16 then false
    else if apiKey = 18 ∨ apiKey = 3 then true
    else if corrId > 65535 then false
    else length + 4 = count % 2 ^ 32

def detectRedis (memory : Memory) (info : BufInfo) (count : ℕ) : Bool :=
  match peek memory info count 4 4 with
  | none => false
  | some header => octet header 0 = 0x2a && 0x31 ≤ octet header 1 && octet header 1 ≤ 0x39

def detectMysql (memory : Memory) (info : BufInfo) (count : ℕ) : Bool :=
  match peek memory info count 5 5 with
  | none => false
  | some header =>
    let payloadLen := leValue (header.take 3)
    octet header 3 = 0 && octet header 4 = 0x0a && 1 ≤ payloadLen && payloadLen ≤ 0xffffff

/-- `GET`, `HTTP`, `POST`, `PUT`, `DELETE`, `PATCH`, `CONNECT`, `HEAD`, `OPTIONS`. -/
def http1Starts : List (List Byte) :=
  [[0x47, 0x45, 0x54], [0x48, 0x54, 0x54, 0x50], [0x50, 0x4f, 0x53, 0x54], [0x50, 0x55, 0x54],
    [0x44, 0x45, 0x4c, 0x45, 0x54, 0x45], [0x50, 0x41, 0x54, 0x43, 0x48],
    [0x43, 0x4f, 0x4e, 0x4e, 0x45, 0x43, 0x54], [0x48, 0x45, 0x41, 0x44],
    [0x4f, 0x50, 0x54, 0x49, 0x4f, 0x4e, 0x53]]

/-- `PRI * HTTP/2.0`, two line ends, `SM`, two line ends. -/
def http2Preface : List Byte :=
  [0x50, 0x52, 0x49, 0x20, 0x2a, 0x20, 0x48, 0x54, 0x54, 0x50, 0x2f, 0x32, 0x2e, 0x30, 0x0d, 0x0a,
    0x0d, 0x0a, 0x53, 0x4d, 0x0d, 0x0a, 0x0d, 0x0a]

def detectHttp (memory : Memory) (info : BufInfo) (count : ℕ) : Protocol :=
  match peek memory info count 7 7 with
  | none => .unknown
  | some head =>
    if http1Starts.any fun start => head.take start.length = start then .http1
    else if count < 24 then .unknown
    else if head.take 3 ≠ [0x50, 0x52, 0x49] then .unknown
    else if bufRead memory 24 info 0 = some http2Preface then .http2
    else .unknown

/-- The protocol that `detect_protocol` finds. -/
def detectedProtocol (memory : Memory) (info : BufInfo) (count : ℕ) (conn : ConnInfo) : Protocol :=
  if isDns conn then .dns
  else if detectMongodb memory info count then .mongodb
  else if detectKafka memory info count then .kafka
  else if detectRedis memory info count then .redis
  else if detectMysql memory info count then .mysql
  else detectHttp memory info count

def detectProtocol (memory : Memory) (info : BufInfo) (count : ℕ) (conn : ConnInfo) : ConnInfo :=
  let protocol := detectedProtocol memory info count conn
  { conn with
    protocol := protocol
    -- MySQL connections may still be upgraded to TLS
    tlsUpgradePending := conn.tlsUpgradePending || protocol = .mysql }

/-! ## TLS -/

def detectTls (memory : Memory) (info : BufInfo) (count : ℕ) (conn : ConnInfo) : ConnInfo :=
  match peek memory info count 5 5 with
  | none => conn
  | some header =>
    if octet header 0 = 0x16 ∧ octet header 1 = 0x03 ∧ 1 ≤ octet header 2 then
      { conn with isSsl := true }
    else conn

def maxMsgSize : ℕ := 30720

/-- `capture_tls_client_hello` and `capture_tls_server_hello`, which differ in the type of
the handshake message. -/
def captureTlsHello (helloType : ℕ) (memory : Memory) (info : BufInfo) (count : ℕ) :
    Option (List Byte) :=
  match peek memory info count 52 6 with
  | none => none
  | some header =>
    if octet header 0 = 0x16 ∧ octet header 1 = 0x03 ∧ 1 ≤ octet header 2 then
      if octet header 5 ≠ helloType then none
      else
        let totalSize := 5 + beValue ((header.drop 3).take 2)
        if totalSize > count ∨ totalSize > maxMsgSize then none
        else bufRead memory (totalSize &&& (maxMsgSize - 1)) info 0
    else none

def captureTlsClientHello : Memory → BufInfo → ℕ → Option (List Byte) := captureTlsHello 1

def captureTlsServerHello : Memory → BufInfo → ℕ → Option (List Byte) := captureTlsHello 2

end Qtap.Bpf
