import PqtlsLab.Protocol.Identifiers
import PqtlsLab.Protocol.JsonLibrary

/-!
# Application messages

A frame carries one JSON object. `Message.parse` turns the text of a frame into a
message or throws, with the checks in the order of the source and its error texts.
Labels that the code draws from the CSPRNG and from the clock are arguments, so the
functions below are deterministic.
-/

namespace PqtlsLab

/-- `MessageType`. -/
inductive MessageType where
  | ping
  | echo
  | telemetry
  | capabilities
  | close
  | acknowledgement
  | pong
  | error
  deriving DecidableEq, Repr

/-- `to_string(MessageType)`. -/
def MessageType.toText : MessageType → Bytes
  | .ping => ascii "ping"
  | .echo => ascii "echo"
  | .telemetry => ascii "telemetry"
  | .capabilities => ascii "capabilities"
  | .close => ascii "close"
  | .acknowledgement => ascii "acknowledgement"
  | .pong => ascii "pong"
  | .error => ascii "error"

/-- `message_type_from_string`. -/
def messageTypeFromString (name : Bytes) : Option MessageType :=
  if name = ascii "ping" then some .ping
  else if name = ascii "echo" then some .echo
  else if name = ascii "telemetry" then some .telemetry
  else if name = ascii "capabilities" then some .capabilities
  else if name = ascii "close" then some .close
  else if name = ascii "acknowledgement" then some .acknowledgement
  else if name = ascii "pong" then some .pong
  else if name = ascii "error" then some .error
  else none

/-- `kProtocolVersion`. -/
def kProtocolVersion : Int32 := 1

/-- `kMaxJsonDepth`. -/
def kMaxJsonDepth : ℕ := 16

/-- The number of continuation bytes that a leading byte announces and the bits it
contributes to the code point. -/
def utf8Lead (first : UInt8) : Option (ℕ × ℕ) :=
  if first &&& 0xE0 = 0xC0 then some (1, (first &&& 0x1F).toNat)
  else if first &&& 0xF0 = 0xE0 then some (2, (first &&& 0x0F).toNat)
  else if first &&& 0xF8 = 0xF0 then some (3, (first &&& 0x07).toNat)
  else none

/-- The inner loop of `is_valid_utf8`: the code point after the continuation bytes, or
`none` if one of them is not a continuation byte. -/
def utf8Continue (codePoint : ℕ) : Bytes → Option ℕ
  | [] => some codePoint
  | cont :: rest =>
    if cont &&& 0xC0 ≠ 0x80 then none
    else utf8Continue ((codePoint <<< 6) ||| (cont &&& 0x3F).toNat) rest

/-- Overlong forms, surrogates and numbers beyond the last code point. -/
def utf8Rejected (extra codePoint : ℕ) : Bool :=
  (extra == 1 && codePoint < 0x80) || (extra == 2 && codePoint < 0x800) ||
    (extra == 3 && codePoint < 0x10000) || codePoint > 0x10FFFF ||
    (codePoint ≥ 0xD800 && codePoint ≤ 0xDFFF)

/-- The outer loop of `is_valid_utf8`. Every round consumes at least one byte, so the
length of the text bounds the number of rounds. -/
def utf8Loop : ℕ → Bytes → Bool
  | _, [] => true
  | 0, _ :: _ => false
  | fuel + 1, first :: rest =>
    if first < 0x80 then utf8Loop fuel rest
    else
      match utf8Lead first with
      | none => false
      | some (extra, codePoint) =>
        if rest.length < extra then false
        else
          match utf8Continue codePoint (rest.take extra) with
          | none => false
          | some codePoint =>
            if utf8Rejected extra codePoint then false else utf8Loop fuel (rest.drop extra)

/-- `is_valid_utf8`. -/
def isValidUtf8 (bytes : Bytes) : Bool := utf8Loop bytes.length bytes

mutual

/-- `json_depth`. -/
def jsonDepth : Json → ℕ → ℕ
  | .array xs, current =>
    if current > kMaxJsonDepth then current else jsonDepthList xs current current
  | .object ms, current =>
    if current > kMaxJsonDepth then current else jsonDepthMembers ms current current
  | _, current => current

/-- The loop of `json_depth` over the elements of an array. -/
def jsonDepthList : List Json → ℕ → ℕ → ℕ
  | [], _, deepest => deepest
  | child :: rest, current, deepest =>
    let deepest := max deepest (jsonDepth child (current + 1))
    if deepest > kMaxJsonDepth then deepest else jsonDepthList rest current deepest

/-- The loop of `json_depth` over the members of an object. -/
def jsonDepthMembers : List (Bytes × Json) → ℕ → ℕ → ℕ
  | [], _, deepest => deepest
  | (_, child) :: rest, current, deepest =>
    let deepest := max deepest (jsonDepth child (current + 1))
    if deepest > kMaxJsonDepth then deepest else jsonDepthMembers rest current deepest

end

/-- What the environment provides for labelling one message. -/
structure Label where
  /-- The bytes of the CSPRNG. -/
  entropy : Entropy
  /-- The clock. -/
  now : UtcTime

/-- A label from the first day of a year. -/
def Label.sample : Label where
  entropy _ := 0
  now := {
    year := 2026, month := 1, day := 1, hour := 0, minute := 0, second := 0, millis := 0
    year_bounds := by decide
    month_le := by decide
    day_le := by decide
    hour_le := by decide
    minute_le := by decide
    second_le := by decide
    millis_le := by decide }

/-- `Message`. -/
structure Message where
  protocolVersion : Int32
  messageId : Bytes
  type : MessageType
  timestamp : Bytes
  status : Option Bytes
  payload : JsonValue

namespace Message

/-- The call of the JSON reader: of its exceptions only `parse_error` is translated. -/
def parseDocument (lib : JsonLibrary) (text : Bytes) : Except Thrown JsonValue :=
  match lib.parse text with
  | .ok doc => .ok doc
  | .error (.parseError what) =>
    .error (protocolError (ascii "application message is not valid JSON: " ++ what))
  | .error e => .error e.toThrown

/-- A mandatory field of the document. -/
def mandatoryField (doc : JsonValue) (field : Bytes) : Except Thrown JsonValue :=
  match doc.get? field with
  | some value => .ok value
  | none => .error (protocolError
      (ascii "application message is missing the mandatory field '" ++ field ++ ascii "'"))

/-- The text of a field that has to be a string. -/
def requireString (value : JsonValue) (message : Bytes) : Except Thrown Bytes :=
  match value.string? with
  | some s => .ok s
  | none => .error (protocolError message)

/-- An optional field of the document that has to be a string. -/
def optionalString (doc : JsonValue) (field message : Bytes) : Except Thrown (Option Bytes) :=
  match doc.get? field with
  | some value => some <$> requireString value message
  | none => .ok none

/-- The field `protocol_version`. `get<int>()` keeps the low 32 bits. -/
def parseVersion (doc : JsonValue) : Except Thrown Int32 := do
  let value ← mandatoryField doc (ascii "protocol_version")
  match value.int? with
  | none => .error (protocolError (ascii "'protocol_version' must be an integer"))
  | some i =>
    let version := Int32.ofInt i
    if version ≠ kProtocolVersion then
      .error (protocolError (ascii "unsupported protocol version " ++ decimalInt version.toInt ++
        ascii "; this build speaks " ++ decimalInt kProtocolVersion.toInt ++ ascii " only"))
    else .ok version

/-- The field `type`. -/
def parseType (doc : JsonValue) : Except Thrown MessageType := do
  let value ← mandatoryField doc (ascii "type")
  let name ← requireString value (ascii "'type' must be a string")
  match messageTypeFromString name with
  | none => .error (protocolError (ascii "unknown message type '" ++ name ++ ascii "'"))
  | some type => .ok type

/-- The field `message_id`, which is replaced by a fresh identifier where it is missing. -/
def parseMessageId (label : Label) (doc : JsonValue) : Except Thrown Bytes := do
  match ← optionalString doc (ascii "message_id") (ascii "'message_id' must be a string") with
  | none => .ok (generateUuidV4 label.entropy)
  | some id =>
    if id.length > 128 then
      .error (protocolError (ascii "'message_id' is longer than the 128-character limit"))
    else .ok id

/-- The field `timestamp`, which is replaced by the current time where it is missing. -/
def parseTimestamp (label : Label) (doc : JsonValue) : Except Thrown Bytes := do
  let timestamp ← optionalString doc (ascii "timestamp")
    (ascii "'timestamp' must be an ISO-8601 string")
  .ok (timestamp.getD (iso8601Now label.now))

/-- The field `status`. -/
def parseStatus (doc : JsonValue) : Except Thrown (Option Bytes) :=
  optionalString doc (ascii "status") (ascii "'status' must be a string")

/-- The field `payload`. -/
def parsePayload (doc : JsonValue) : Except Thrown JsonValue :=
  match doc.get? (ascii "payload") with
  | none => .ok JsonValue.emptyObject
  | some value =>
    if value.isObject then .ok value
    else .error (protocolError (ascii "'payload' must be a JSON object"))

/-- The field that only telemetry messages have to carry. -/
def checkTelemetry (type : MessageType) (payload : JsonValue) : Except Thrown Unit :=
  if type = .telemetry ∧ (payload.get? (ascii "device_id")).bind JsonValue.string? = none then
    .error (protocolError (ascii "telemetry message requires a string 'payload.device_id'"))
  else .ok ()

/-- The checks of `Message::parse` on the document. -/
def ofDocument (label : Label) (doc : JsonValue) : Except Thrown Message := do
  let protocolVersion ← parseVersion doc
  let type ← parseType doc
  let messageId ← parseMessageId label doc
  let timestamp ← parseTimestamp label doc
  let status ← parseStatus doc
  let payload ← parsePayload doc
  checkTelemetry type payload
  .ok { protocolVersion, messageId, type, timestamp, status, payload }

/-- `Message::parse`. -/
def parse (lib : JsonLibrary) (label : Label) (text : Bytes) : Except Thrown Message :=
  if text.isEmpty then .error (protocolError (ascii "empty application message"))
  else if ¬ isValidUtf8 text then
    .error (protocolError (ascii "application message is not valid UTF-8"))
  else
    match parseDocument lib text with
    | .error e => .error e
    | .ok doc =>
      if ¬ doc.isObject then
        .error (protocolError (ascii "application message must be a JSON object"))
      else if jsonDepth doc.val 0 > kMaxJsonDepth then
        .error (protocolError (ascii "application message exceeds the maximum JSON nesting " ++
          ascii "depth of " ++ decimal kMaxJsonDepth))
      else ofDocument label doc

/-- `Message::to_json`. -/
def toJson (m : Message) : JsonValue :=
  let doc := JsonValue.null.set (ascii "protocol_version") (.int m.protocolVersion)
  let doc := doc.set (ascii "message_id") (.string m.messageId)
  let doc := doc.set (ascii "type") (.string m.type.toText)
  let doc := doc.set (ascii "timestamp") (.string m.timestamp)
  let doc := match m.status with
    | some status => doc.set (ascii "status") (.string status)
    | none => doc
  if m.payload.hasMembers then doc.set (ascii "payload") m.payload else doc

/-- `Message::serialize`. -/
def serialize (lib : JsonLibrary) (m : Message) : Except Thrown Bytes :=
  match lib.dump m.toJson.val with
  | .ok text => .ok text
  | .error e => .error e.toThrown

/-- `Message::make_request`. -/
def makeRequest (label : Label) (type : MessageType) (payload : JsonValue) : Message where
  protocolVersion := kProtocolVersion
  messageId := generateUuidV4 label.entropy
  type := type
  timestamp := iso8601Now label.now
  status := none
  payload := match payload.val with
    | .null => JsonValue.emptyObject
    | _ => payload

/-- `Message::make_acknowledgement`. -/
def makeAcknowledgement (label : Label) (request : Message) (status : Bytes) : Message where
  protocolVersion := kProtocolVersion
  messageId := request.messageId
  type := .acknowledgement
  timestamp := iso8601Now label.now
  status := some status
  payload := JsonValue.emptyObject

/-- `Message::make_error`. -/
def makeError (label : Label) (request : Option Message) (reason : Bytes) : Message where
  protocolVersion := kProtocolVersion
  messageId := match request with
    | some request => request.messageId
    | none => generateUuidV4 label.entropy
  type := .error
  timestamp := iso8601Now label.now
  status := some (ascii "rejected")
  payload := JsonValue.null.set (ascii "reason") (.string reason)

end Message

end PqtlsLab
