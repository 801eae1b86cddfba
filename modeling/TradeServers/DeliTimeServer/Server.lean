import TradeServers.DeliTimeServer.Gzip
import TradeServers.Slot
import TradeServers.StatementText

/-!
# Uploads and downloads of the time server

`comServer::dealMessage` of `Deli_time_server` decompresses the body of an upload into a buffer that
it doubles until the text fits, and hands the buffer to `mysqlInsert` as a C string. A download
compresses what `mysqlQuery` has found into a buffer of twice its length. `uploads_and_downloads`
says exactly when a text gets through.

What C++ leaves undefined is a `Fault` here. Allocations of a size that is not negative succeed.
-/

set_option autoImplicit false
set_option relaxedAutoImplicit false

namespace TradeServers.DeliTimeServer

open Loop PaddedField

/-! ### Messages -/

/-- The constant `headerLen`, the size of the packed struct `Header`. -/
def headerLen : ℕ := 44

/-- What `dealMessage` cuts out of a message, and what `send` is given. -/
@[ext]
structure Packet where
  cmd : Bytes
  format : Bytes
  userName : Bytes
  body : Bytes
deriving DecidableEq

/-- The header parsing of `dealMessage`, for a message of at least `headerLen` bytes. -/
def parsePacket (msg : Bytes) : Packet where
  cmd := cutAt 0 (substr msg 0 8)
  format := cutAt 0 (substr msg 8 4)
  userName := cutAt 0 (substr msg 12 32)
  body := msg.drop headerLen

/-- What a run of `dealMessage` must not do: an `int` overflows, `memset` gets the result of a
failed `malloc`, a C string has no end in its buffer, `sprintf` writes behind its buffer, or a null
pointer is followed. -/
inductive Fault
  | intOverflow
  | badAlloc
  | overread
  | bufferOverflow
  | nullPointer
deriving DecidableEq

/-- What `dealMessage` does with a message. -/
inductive Outcome
  | nothing
  | mysqlInsert (userName content : Bytes)
  | send (packet : Packet)
deriving DecidableEq

/-- The doubling of an `int`. -/
def doubled (value : ℤ) : Except Fault ℤ :=
  if -2 ^ 31 ≤ value * 2 ∧ value * 2 < 2 ^ 31 then .ok (value * 2) else .error .intOverflow

/-- The string in a buffer. -/
def charString (buffer : Bytes) : Except Fault Bytes :=
  if 0 ∈ buffer then .ok (cString buffer) else .error .overread

/-! ### Queries -/

/-- The answer to a query: an error, no row, or a row whose column may be `NULL`. -/
inductive Answer
  | failed
  | noRow
  | row (content : Option Bytes)
deriving DecidableEq

/-- A connection of the pool, which answers query texts. -/
abbrev Connection := Bytes → Answer

/-- `TABLE_NAME`. -/
def tableName : Bytes := ascii "jsonServer"

/-- The text that `mysqlQuery` formats. -/
def queryText (userName : Bytes) : Bytes :=
  ascii "SELECT content FROM " ++ ascii " " ++ tableName ++ ascii " where UserName = \"" ++
    cString userName ++ ascii "\""

/-- `MysqlConnection::mysqlQuery`: what it leaves in `getRes`. The text is formatted into a buffer
of 64 bytes. -/
def mysqlQuery (connection : Connection) (userName : Bytes) : Except Fault Bytes :=
  if 64 < (queryText userName).length + 1 then .error .bufferOverflow
  else
    match connection (queryText userName) with
    | .failed => .ok []
    | .noRow => .ok (ascii "FAIL")
    | .row none => .error .nullPointer
    | .row (some content) => .ok (cString content)

section Zlib

variable (zlib : Zlib)

/-! ### The handler -/

/-- A round of the loop that doubles the buffer: the buffer, or the next size. -/
def inflateRound (body : Bytes) (srcLen destLen : ℤ) : Except Fault Bytes ⊕ ℤ :=
  if destLen < 0 then .inl (.error .badAlloc)
  else
    let ret := gzDecompress zlib body srcLen destLen
    if ret.1 = -5 then
      match doubled destLen with
      | .ok destLen => .inr destLen
      | .error fault => .inl (.error fault)
    else .inl (.ok (pad destLen.toNat 0 ret.2))

/-- What `dealMessage` does with the text of an upload. -/
def insertText (connection : Option Connection) (userName : Bytes) (buffer : Bytes) :
    Except Fault Outcome := do
  let unComBody ← charString buffer
  match connection with
  | none => .ok .nothing
  | some _ => .ok (.mysqlInsert userName unComBody)

/-- What `dealMessage` does with an upload whose body has `srcLen` bytes. -/
def dealUpload (connection : Option Connection) (packet : Packet) (srcLen : ℤ) :
    Computation (Except Fault Outcome) :=
  match doubled srcLen with
  | .error fault => return .error fault
  | .ok destLen => do
    match ← loop (inflateRound zlib packet.body srcLen) destLen with
    | .error fault => return .error fault
    | .ok buffer => return insertText connection packet.userName buffer

/-- What `dealMessage` does when the query has returned `bodySize` bytes. -/
def compressResult (userName sqlQueryRes : Bytes) (bodySize : ℤ) :
    Computation (Except Fault Outcome) :=
  match doubled bodySize with
  | .error fault => return .error fault
  | .ok destLen =>
    if destLen < 0 then return .error .badAlloc
    else do
      let (gzSize, compressed) ← gzCompress zlib sqlQueryRes bodySize destLen
      if gzSize ≤ 0 then return .ok .nothing
      else
        return .ok (.send ⟨ascii "RSDPJ", ascii "GZIP", userName,
          (pad destLen.toNat 0 compressed).take gzSize.toNat⟩)

/-- What `dealMessage` answers when the query has returned. -/
def answerDownload (userName sqlQueryRes : Bytes) : Computation (Except Fault Outcome) :=
  if sqlQueryRes = [] then return .ok .nothing
  else if sqlQueryRes = ascii "FAIL" then
    return .ok (.send ⟨ascii "RSDPJ", ascii "TXT", userName, sqlQueryRes⟩)
  else compressResult zlib userName sqlQueryRes (toInt32 sqlQueryRes.length)

/-- What `dealMessage` does with a download. -/
def dealDownload (connection : Option Connection) (packet : Packet) :
    Computation (Except Fault Outcome) :=
  match connection with
  | none => return .error .nullPointer
  | some connection =>
    match mysqlQuery connection packet.userName with
    | .error fault => return .error fault
    | .ok sqlQueryRes => answerDownload zlib packet.userName sqlQueryRes

/-- `comServer::dealMessage`; `connection` is what `getOneConnect` returns. -/
def dealMessage (connection : Option Connection) (msg : Bytes) :
    Computation (Except Fault Outcome) :=
  if msg.length < headerLen then return .ok .nothing
  else
    let packet := parsePacket msg
    if packet.cmd = ascii "RQUPJ" ∧ packet.format = ascii "GZIP" then
      dealUpload zlib connection packet (toInt32 packet.body.length)
    else if packet.cmd = ascii "RQDPJ" then dealDownload zlib connection packet
    else return .ok .nothing

end Zlib

end TradeServers.DeliTimeServer
