import CrosschainAgent.System.World
import CrosschainAgent.Glue.Manager

/-!
# Formats that behave as assumed

The interfaces `NodeAbi` and `Codec` have instances: bytes in hexadecimal, accounts as
decimal `did:bid` addresses, argument lists read back token by token, and messages as fields
with their lengths in front.
-/

namespace CrosschainAgent

open Strings Tokens

namespace Formats

/-- The digit of a number below 16. -/
def hexDigit (n : ℕ) : Char := Nat.digitChar n

/-- The value of a hexadecimal digit. -/
def hexValue (c : Char) : ℕ := if c.isDigit then c.toNat - '0'.toNat else c.toNat - 'a'.toNat + 10

/-- Bytes in hexadecimal. -/
def hexText (b : Bytes) : Text := b.flatMap fun u => [hexDigit (u.toNat / 16), hexDigit (u.toNat % 16)]

/-- The bytes a hexadecimal text stands for. -/
def hexBytes : Text → Bytes
  | c :: d :: text => UInt8.ofNat (16 * hexValue c + hexValue d) :: hexBytes text
  | _ => []

/-- A hexadecimal digit reads back as its value. -/
theorem hexValue_hexDigit : ∀ n < 16, hexValue (hexDigit n) = n := by decide

/-- No hexadecimal digit is a comma or a quote. -/
theorem comma_hexDigit : ∀ n < 16, hexDigit n ≠ ',' ∧ hexDigit n ≠ '\'' := by decide

/-- Bytes read back from their hexadecimal text. -/
theorem hexBytes_hexText (b : Bytes) : hexBytes (hexText b) = b := by
  induction b with
  | nil => rfl
  | cons u b ih =>
    have hdiv : u.toNat / 16 < 16 := by
      have := u.toNat_lt
      omega
    have hvalue : 16 * (u.toNat / 16) + u.toNat % 16 = u.toNat := Nat.div_add_mod u.toNat 16
    rw [hexText, List.flatMap_cons, List.cons_append, List.cons_append, hexBytes,
      hexValue_hexDigit _ hdiv, hexValue_hexDigit _ (Nat.mod_lt _ (by decide)), hvalue,
      UInt8.ofNat_toNat]
    exact congrArg (u :: ·) ih

/-- A hexadecimal text has no comma in it. -/
theorem comma_hexText (b : Bytes) : ',' ∉ hexText b := by
  intro h
  obtain ⟨u, _, hmem⟩ := List.mem_flatMap.mp h
  have hdiv : u.toNat / 16 < 16 := by
    have := u.toNat_lt
    omega
  rcases List.mem_cons.mp hmem with heq | hmem
  · exact (comma_hexDigit _ hdiv).1 heq.symm
  · exact (comma_hexDigit _ (Nat.mod_lt _ (by decide))).1 (List.mem_singleton.mp hmem).symm

/-- An account as text. -/
def bidText (a : Address) : Text := "did:bid:".toList ++ decimal a

/-- The account of a text. -/
def bidAddress (text : Text) : Address := digitsValue (text.drop 8)

/-- An address reads back from its text. -/
theorem bidAddress_bidText (a : Address) : bidAddress (bidText a) = a := digitsValue_decimal a

/-- The text of an address has no comma in it. -/
theorem comma_bidText (a : Address) : ',' ∉ bidText a := by
  intro h
  rcases List.mem_append.mp h with hhead | htail
  · exact absurd hhead (by decide)
  · exact not_mem_decimal (by decide) a htail

/-- The text between quotes. -/
def unquote (text : Text) : Text := (text.drop 1).dropLast

/-- The quote as a list of characters. -/
theorem quote_eq : "'".toList = ['\''] := rfl

/-- A quoted text reads back without its quotes. -/
theorem unquote_quoted (text : Text) : unquote ("'".toList ++ text ++ "'".toList) = text := by
  simp [unquote, quote_eq]

/-- Quotes add no comma. -/
theorem comma_quoted {text : Text} (h : ',' ∉ text) : ',' ∉ "'".toList ++ text ++ "'".toList := by
  simp [quote_eq, h]

/-- Read a query. -/
def readQuery (function args : Text) : Option ContractQuery :=
  if function = "GetCrossTxInfo1(bytes)".toList then some (.getCrossTxInfo1 (hexBytes (unquote args)))
  else if function = "GetCrossTxInfo2(bytes)".toList then
    some (.getCrossTxInfo2 (hexBytes (unquote args)))
  else none

/-- Read a call. -/
def readCall (function args : Text) : Option Bridge.Call :=
  if function = "SendTx(bytes,address,address,uint256,uint256)".toList then
    match getlines ',' args with
    | [id, src, dest, amount, timeout] => some (.sendTx (hexBytes (unquote id)) (bidAddress src)
        (bidAddress dest) (digitsValue amount) (digitsValue timeout))
    | _ => none
  else if function = "SendAckedTx(bytes,uint8,string,uint256)".toList then
    match getlines ',' args with
    | [id, result, desc, time] => some (.sendAckedTx (hexBytes (unquote id)) (digitsValue result)
        (unquote desc) (digitsValue time))
    | _ => none
  else none

/-- The first half of a record is asked for by its id. -/
theorem readQuery_info1 (id : Bytes) : readQuery "GetCrossTxInfo1(bytes)".toList
    ("'".toList ++ hexText id ++ "'".toList) = some (.getCrossTxInfo1 id) := by
  rw [readQuery, if_pos rfl, unquote_quoted, hexBytes_hexText]

/-- The second half of a record is asked for by its id. -/
theorem readQuery_info2 (id : Bytes) : readQuery "GetCrossTxInfo2(bytes)".toList
    ("'".toList ++ hexText id ++ "'".toList) = some (.getCrossTxInfo2 id) := by
  rw [readQuery, if_neg (by decide), if_pos rfl, unquote_quoted, hexBytes_hexText]

/-- The separators of an argument list are commas and quotes. -/
theorem separators : ",".toList = [','] ∧ "',".toList = "'".toList ++ [','] ∧
    ",'".toList = [','] ++ "'".toList := by decide

/-- The tokens of the arguments of `SendTx`. -/
theorem getlines_sendTx {id src dest amount timeout : Text} (hid : ',' ∉ id) (hsrc : ',' ∉ src)
    (hdest : ',' ∉ dest) (hamount : ',' ∉ amount) (htimeout : ',' ∉ timeout) (hne : timeout ≠ []) :
    getlines ',' ("'".toList ++ id ++ "',".toList ++ src ++ ",".toList ++ dest ++ ",".toList ++
        amount ++ ",".toList ++ timeout) =
      ["'".toList ++ id ++ "'".toList, src, dest, amount, timeout] := by
  obtain ⟨hcomma, hquote, _⟩ := separators
  have htokens := getlines_append ',' (comma_quoted hid)
    (src ++ ',' :: (dest ++ ',' :: (amount ++ ',' :: timeout)))
  rw [getlines_append ',' hsrc, getlines_append ',' hdest, getlines_append ',' hamount,
    getlines_last ',' htimeout hne] at htokens
  simpa only [hcomma, hquote, List.append_assoc, List.singleton_append, List.cons_append,
    List.nil_append] using htokens

/-- The tokens of the arguments of `SendAckedTx`. -/
theorem getlines_sendAckedTx {id result desc time : Text} (hid : ',' ∉ id) (hresult : ',' ∉ result)
    (hdesc : ',' ∉ desc) (htime : ',' ∉ time) (hne : time ≠ []) :
    getlines ',' ("'".toList ++ id ++ "',".toList ++ result ++ ",'".toList ++ desc ++ "',".toList ++
        time) =
      ["'".toList ++ id ++ "'".toList, result, "'".toList ++ desc ++ "'".toList, time] := by
  obtain ⟨_, hquote, hquote'⟩ := separators
  have htokens := getlines_append ',' (comma_quoted hid)
    (result ++ ',' :: (("'".toList ++ desc ++ "'".toList) ++ ',' :: time))
  rw [getlines_append ',' hresult, getlines_append ',' (comma_quoted hdesc),
    getlines_last ',' htime hne] at htokens
  simpa only [hquote, hquote', List.append_assoc, List.singleton_append, List.cons_append,
    List.nil_append] using htokens

/-- A number has no comma in it. -/
theorem comma_decimal (n : ℕ) : ',' ∉ decimal n := not_mem_decimal (by decide) n

/-- The text of a `SendTx` reads back as the call. -/
theorem readCall_sendTx (id : Bytes) (src dest : Address) (amount timeout : ℕ) :
    readCall "SendTx(bytes,address,address,uint256,uint256)".toList
      ("'".toList ++ hexText id ++ "',".toList ++ bidText src ++ ",".toList ++ bidText dest ++
        ",".toList ++ decimal amount ++ ",".toList ++ decimal timeout) =
      some (.sendTx id src dest amount timeout) := by
  rw [readCall, if_pos rfl, getlines_sendTx (comma_hexText id) (comma_bidText src)
    (comma_bidText dest) (comma_decimal amount) (comma_decimal timeout) (decimal_ne_nil timeout)]
  simp only [unquote_quoted, hexBytes_hexText, bidAddress_bidText, digitsValue_decimal]

/-- The text of a `SendAckedTx` reads back as the call. -/
theorem readCall_sendAckedTx (id : Bytes) (result : ℕ) (desc : Text) (time : ℕ) (h : ',' ∉ desc) :
    readCall "SendAckedTx(bytes,uint8,string,uint256)".toList
      ("'".toList ++ hexText id ++ "',".toList ++ decimal result ++ ",'".toList ++ desc ++
        "',".toList ++ decimal time) = some (.sendAckedTx id result desc time) := by
  rw [readCall, if_neg (by decide), if_pos rfl, getlines_sendAckedTx (comma_hexText id)
    (comma_decimal result) h (comma_decimal time) (decimal_ne_nil time)]
  simp only [unquote_quoted, hexBytes_hexText, digitsValue_decimal]

/-- A node that writes bytes in hexadecimal. -/
def abi : NodeAbi where
  bytesText := hexText
  addressText := bidText
  decodeQuery := readQuery
  decodeCall := readCall
  bytesText_nil := rfl
  bytesText_inj b b' h := by rw [← hexBytes_hexText b, h, hexBytes_hexText]
  comma_bytesText := comma_hexText
  comma_addressText := comma_bidText
  addressText_ne_nil a := List.cons_ne_nil _ _
  decodeQuery_info1 := readQuery_info1
  decodeQuery_info2 := readQuery_info2
  decodeCall_sendTx id src dest amount timeout _ _ := readCall_sendTx id src dest amount timeout
  decodeCall_sendAckedTx id result desc time _ _ h _ := readCall_sendAckedTx id result desc time h

/-- A field with its length in front. -/
def field (text : Text) : Text := decimal text.length ++ ':' :: text

/-- Read a field and what follows it. -/
def readField (text : Text) : Option (Text × Text) :=
  match text.dropWhile Char.isDigit with
  | ':' :: rest => some (rest.take (digitsValue text), rest.drop (digitsValue text))
  | _ => none

/-- A field reads back, and what follows it is left. -/
theorem readField_field (text rest : Text) : readField (field text ++ rest) = some (text, rest) := by
  have hdigits : ∀ c ∈ decimal text.length, c.isDigit = true := fun c hc => isDigit_of_mem_decimal hc
  have happend : field text ++ rest = decimal text.length ++ ':' :: (text ++ rest) := by
    rw [field, List.append_assoc, List.cons_append]
  have hstop : ¬(':' : Char).isDigit = true := by decide
  have hdrop : (field text ++ rest).dropWhile Char.isDigit = ':' :: (text ++ rest) := by
    rw [happend, List.dropWhile_append_of_pos hdigits, List.dropWhile_cons_of_neg hstop]
  have hvalue : digitsValue (field text ++ rest) = text.length := by
    have hself := digitsValue_decimal text.length
    rw [digitsValue, List.takeWhile_eq_self_iff.mpr hdigits] at hself
    rw [digitsValue, happend, List.takeWhile_append_of_pos hdigits, List.takeWhile_cons_of_neg hstop,
      List.append_nil, hself]
  simp [readField, hdrop, hvalue]

/-- Read the given number of fields. -/
def readFields : ℕ → Text → Option (List Text)
  | 0, _ => some []
  | n + 1, text =>
    match readField text with
    | some (first, rest) => (readFields n rest).map (first :: ·)
    | none => none

/-- All fields read back. -/
theorem readFields_flatMap (fields : List Text) :
    readFields fields.length (fields.flatMap field) = some fields := by
  induction fields with
  | nil => rfl
  | cons first fields ih =>
    rw [List.length_cons, List.flatMap_cons, readFields, readField_field]
    exact congrArg (Option.map (first :: ·)) ih

/-- Signed fields are written as unsigned numbers. -/
def int64Text (i : Int64) : Text := decimal i.toUInt64.toNat

def int32Text (i : Int32) : Text := decimal i.toUInt32.toNat

def textInt64 (text : Text) : Int64 := (UInt64.ofNat (digitsValue text)).toInt64

def textInt32 (text : Text) : Int32 := (UInt32.ofNat (digitsValue text)).toInt32

/-- A word of 64 bits reads back from its text. -/
theorem textInt64_int64Text (i : Int64) : textInt64 (int64Text i) = i := by
  rw [textInt64, int64Text, digitsValue_decimal, UInt64.ofNat_toNat, Int64.toInt64_toUInt64]

/-- A word of 32 bits reads back from its text. -/
theorem textInt32_int32Text (i : Int32) : textInt32 (int32Text i) = i := by
  rw [textInt32, int32Text, digitsValue_decimal, UInt32.ofNat_toNat, Int32.toInt32_toUInt32]

/-- The fields of a message. -/
def fields (info : Protocol.CrossTxInfo) : List Text :=
  [info.crosstxid, info.srcbid, info.destbid, int64Text info.amount, int32Text info.status,
    int32Text info.refunded, int64Text info.createtimestamp, int64Text info.executetimestamp,
    int64Text info.timeout, info.errordesc, int64Text info.confirmseq, info.sendtxhash,
    info.sendacktol1hash, info.sendacktol2hash]

/-- The message with the given fields. -/
def ofFields : List Text → Option Protocol.CrossTxInfo
  | [crosstxid, srcbid, destbid, amount, status, refunded, createtimestamp, executetimestamp, timeout,
      errordesc, confirmseq, sendtxhash, sendacktol1hash, sendacktol2hash] => some
    { crosstxid := crosstxid, srcbid := srcbid, destbid := destbid, amount := textInt64 amount,
      status := textInt32 status, refunded := textInt32 refunded,
      createtimestamp := textInt64 createtimestamp, executetimestamp := textInt64 executetimestamp,
      timeout := textInt64 timeout, errordesc := errordesc, confirmseq := textInt64 confirmseq,
      sendtxhash := sendtxhash, sendacktol1hash := sendacktol1hash,
      sendacktol2hash := sendacktol2hash }
  | _ => none

/-- The information of a transfer reads back from its fields. -/
theorem ofFields_fields (info : Protocol.CrossTxInfo) : ofFields (fields info) = some info := by
  simp only [fields, ofFields, textInt64_int64Text, textInt32_int32Text]

/-- A codec that writes the fields one after the other. -/
def codec : Codec where
  serializeAsString info := (fields info).flatMap field
  parseFromString text := (readFields 14 text).bind ofFields
  parse_serialize info := by
    have hread : readFields 14 ((fields info).flatMap field) = some (fields info) :=
      readFields_flatMap (fields info)
    rw [hread, Option.bind_some, ofFields_fields]

/-- An object of a response. -/
def object (members : List (String × Json)) : Json :=
  .obj (members.map fun member => (member.1.toList, member.2))

/-- The response to `/getLedger`. -/
def ledgerReply (seq : ℤ) : HttpResult :=
  .response (some (object [("error_code", .int 0),
    ("result", object [("header", object [("seq", .int seq)])])]))

/-- The response to `/callContract`. -/
def queryReply (data : Text) : HttpResult :=
  .response (some (object [("result", object [("query_rets", .arr [object
    [("error", object [("data", .null)]), ("result", object [("data", .str data)])]])])]))

/-- The responses to the two queries of a record. -/
def recordReplies (r : Bridge.CrossTxInfo) : List Answer :=
  let b : Bridge.State := { Bridge.deploy 0 0 0 with crossTxInfo := fun _ => r }
  [.reply (queryReply (abi.queryText b (.getCrossTxInfo1 []))),
    .reply (queryReply (abi.queryText b (.getCrossTxInfo2 [])))]

/-- The response to `/submitTransaction`. -/
def submitReply (hash : String) : HttpResult :=
  .response (some (object [("results", .arr [object
    [("error_code", .int 0), ("hash", .str hash.toList)]])]))

/-- The response to `/getTransactionHistory` for a transaction that was executed. -/
def historyReply (errorCode : ℤ) : HttpResult :=
  .response (some (object [("error_code", .int 0),
    ("result", object [("transactions", .arr [object [("error_code", .int errorCode)]])])]))

/-- The operations of a thread that get these answers, one after the other. -/
def acts {T : Type} (t : T) (answers : List Answer) : List (Label T) := answers.map (Label.act t)

/-- A system with these formats. -/
def system : System where
  su := { conf := { crossContract := fun _ => "did:bid:bridge".toList }, codec := codec }
  sha256 := Bridge.sumHash
  abi := abi
  owner := fun _ => 1

/-- The id of the transfer of 5 coins from account 7 to account 8 that starts on layer 1. -/
def settledId : Bytes := Bridge.sumHash.hash (Bridge.startWords .layer1 2 7 8 5 3)

/-- Its two records when they are read. -/
def sourceRecord : Bridge.CrossTxInfo :=
  { crossTxId := settledId, destChainId := 2, srcBid := 7, destBid := 8, amount := 5,
    createTimestamp := 3, timeout := 103 }

def escrowRecord : Bridge.CrossTxInfo :=
  { crossTxId := settledId, destChainId := 2, srcBid := 7, destBid := 8, amount := 5,
    executeTimestamp := 4, timeout := 103 }

/-- The answers with which the StartTx event of the transfer escrows it. -/
def startAnswers : List Answer := recordReplies sourceRecord ++
  [.reply (ledgerReply 100), .reply (submitReply "a"), .stored true, .go]

/-- A field of a protobuf message that holds fewer than 128 characters. -/
def lengthDelimited (tag : ℕ) (text : Text) : Text :=
  Char.ofNat tag :: Char.ofNat text.length :: text

/-- A message of a contract's logs. -/
def responseText (tlogRes : Protocol.TlogSubscribeResponse) : Text :=
  lengthDelimited 0x0a tlogRes.address ++ tlogRes.tlogs.flatMap fun tlog =>
    lengthDelimited 0x12 (lengthDelimited 0x0a tlog.topic ++ tlog.tlog.flatMap (lengthDelimited 0x12))

/-- The id of the transfer of 5 coins from account 7 to account 8 that starts on layer 2, and its
record when it is read. -/
def waitingId : Bytes := Bridge.sumHash.hash (Bridge.startWords .layer2 1 7 8 5 3)

def waitingRecord : Bridge.CrossTxInfo :=
  { crossTxId := waitingId, destChainId := 1, srcBid := 7, destBid := 8, amount := 5,
    createTimestamp := 3, timeout := 103 }

/-- The log of a submission of agent 100 that confirms layer 2 up to height 60, and its bytes. -/
def submitLog (errorCode : Protocol.ErrorCode) : Protocol.ManagerContractTlog :=
  { tlogType := .topicSubmit, submit := { agentId := 100, confirmSeq := 60, errorCode := errorCode } }

def succeededBytes : Bytes := [8, 1, 0x2a, 4, 8, 100, 0x20, 60]

def failedBytes : Bytes := [8, 1, 0x2a, 6, 8, 100, 0x20, 60, 0x28, 2]

/-- The message of the deposit, and that of a submission. -/
def waitingMessage : Protocol.TlogSubscribeResponse :=
  ⟨"did:bid:bridge".toList, [⟨"StartTx".toList, [hexText waitingId]⟩]⟩

def submitMessage (b : Bytes) : Protocol.TlogSubscribeResponse :=
  ⟨"did:bid:efEnXEGWYjHRw1CzK4KpWTdusnaRokk8".toList, [⟨"Submit_100".toList, [hexText b]⟩]⟩

/-- A manager that is linked with these formats. -/
def managerSetup : ManagerSetup where
  toSetup := system.su
  managerContract := "did:bid:efEnXEGWYjHRw1CzK4KpWTdusnaRokk8".toList
  layer2Id := 100
  startTxTopic _ := "StartTx".toList
  sendTxTopic _ := "SendTx".toList
  ackTxTopic _ := "SendAck".toList
  agentAddress _ := bidText 1
  feeLimit _ := 20000
  gasPrice _ := 1
  parseTlogSubscribeResponse msg :=
    [waitingMessage, submitMessage succeededBytes, submitMessage failedBytes].find?
      (responseText · = msg)
  parseManagerContractTlog b :=
    if b = succeededBytes then some (submitLog .codeSuccess)
    else if b = failedBytes then some (submitLog .codeInvalidSeq)
    else none

/-- The deposit is recorded at height 50, and the log of a submission releases it. -/
def releasingEvents (b : Bytes) : List (HandleManager.Event × List Answer) :=
  [(.onLayer2SubscribeResponse (responseText waitingMessage), recordReplies waitingRecord ++
      [.reply (ledgerReply 50), .stored true, .go]),
    (.onLayer1SubscribeResponse (responseText (submitMessage b)), [.go, .go, .go, .time 60,
      .reply (ledgerReply 200), .reply (submitReply "b"), .stored true, .go, .stored true, .go, .go])]

end Formats

end CrosschainAgent
