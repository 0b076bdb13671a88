import Anope.Library.Keyed
import Anope.Text.Convert
import Anope.Text.Sepstream
import Mathlib.Data.List.DropRight

/-!
# Connections to the HTTP server

`MyHTTPClient` reads the lines of a header from what has come in, and once it has come to an empty
line, it waits for the content and serves the page.  What it sends is written later, and then the
connection is closed.
-/

namespace Anope.Http

open Library.Split (cut cutInduction cut_append cut_eq_none_iff cut_eq_some_iff)
open Text (Casemap Sepstream)
open Text.Convert (tryConvertUnsigned)

/-! ## Fields -/

/-- A map of `HTTP::Message`, its elements in the order in which they were added. -/
abbrev Fields := List (Str × Str)

/-- `fields[name] = value`: names are compared in any letter case. -/
def Fields.assign (casemap : Casemap) (fields : Fields) (name value : Str) : Fields :=
  Library.Keyed.alter (fun field => casemap.ciStr field.1) (casemap.ciStr name)
    (fun found => some ((found.map Prod.fst).getD name, value)) fields

/-- The value of a name, if there is one. -/
def Fields.find (casemap : Casemap) (fields : Fields) (name : Str) : Option Str :=
  (Library.Keyed.find (fun field => casemap.ciStr field.1) (casemap.ciStr name) fields).map Prod.snd

/-- A name and a value, none of them empty, around an `=`. -/
def splitField (token : Str) : Option (Str × Str) :=
  match cut 61 token with
  | some (name, value) => if name = [] ∨ value = [] then none else some (name, value)
  | none => none

/-- A digit of `Unhex`; what is none comes out as something else. -/
def unhexDigit (casemap : Casemap) (digit : UInt8) : UInt8 :=
  let digit := casemap.tolower digit
  if 97 ≤ digit ∧ digit ≤ 127 then digit - 97 + 10 else digit - 48

/-- `HTTP::URLDecode`. -/
def urlDecode (casemap : Casemap) : Str → Str
  | [] => []
  | 37 :: high :: low :: rest =>
      (unhexDigit casemap high <<< 4 + unhexDigit casemap low) :: urlDecode casemap rest
  | c :: rest => (if c = 43 then 32 else c) :: urlDecode casemap rest

/-- The loops that read a query or the content: fields with an `&` between them. -/
def readQuery (casemap : Casemap) (query : Str) (fields : Fields) : Fields :=
  (Sepstream.new query 38 false).getTokens.foldl (fun fields token =>
    match splitField token with
    | some (name, value) => fields.assign casemap name (urlDecode casemap value)
    | none => fields) fields

/-- The tokens of a stream, each with whether the stream ends behind it. -/
def tokensToEnd (ss : Sepstream) : List (Str × Bool) :=
  match _got : ss.getToken with
  | (none, _) => []
  | (some token, behind) => (token, behind.streamEnd) :: tokensToEnd behind
  termination_by ss.tokens.length + 1 - ss.pos
  decreasing_by
    obtain ⟨same, inside, moved⟩ := Sepstream.getToken_moves _got
    rw [same]
    omega

/-- The loop that reads cookies.  All but the last one end with a semicolon. -/
def readCookies (casemap : Casemap) (text : Str) (cookies : Fields) : Fields :=
  (tokensToEnd (Sepstream.new text 32 false)).foldl (fun cookies token =>
    match splitField token.1 with
    | some (name, value) =>
        cookies.assign casemap name (if token.2 then value else value.dropLast)
    | none => cookies) cookies

/-! ## Lines of a header -/

variable {π : Type}

/-- `action`. -/
inductive Action where
  | none
  | get
  | post
  deriving DecidableEq, Repr

/-- What a client knows of a request from its header. -/
structure Request (π : Type) where
  action : Action
  pageName : Str
  page : Option π
  contentLength : Nat
  headers : Fields
  cookies : Fields
  getData : Fields

/-- Before the first line. -/
def Request.fresh : Request π :=
  ⟨.none, [], none, 0, [], [], []⟩

/-- What is given to a page: the name, the address, and the message. -/
structure Visit where
  name : Str
  ip : Str
  headers : Fields
  cookies : Fields
  getData : Fields
  postData : Fields
  content : Str
  deriving DecidableEq

/-- What a client is answered: an error, or what a page makes of a visit. -/
inductive Response (π : Type) where
  | error (code : Nat) (message : Str)
  | page (page : π) (visit : Visit)
  deriving DecidableEq

/-- What the clients ask the provider. -/
structure Provider (π : Type) where
  casemap : Casemap
  findPage : Str → Option π
  extIps : List Str
  extHeaders : List Str

variable (provider : Provider π)

def unknownOperation : Response π :=
  .error 400 (ascii "Unknown operation")

def invalidParameters : Response π :=
  .error 400 (ascii "Invalid parameters")

/-- A request line that is well-formed. -/
def acceptRequest (request : Request π) (action : Action) (targ : Str) : Request π :=
  match cut 63 targ with
  | some (targ, query) =>
      { request with
        action := action
        pageName := targ
        page := provider.findPage targ
        getData := readQuery provider.casemap query request.getData }
  | none =>
      { request with action := action, pageName := targ, page := provider.findPage targ }

/-- `Read` of a line, before there is an action. -/
def readRequestLine (request : Request π) (buf : Str) : Request π × List (Response π) :=
  match (Sepstream.new buf 32 false).getTokens with
  | [] => (request, [unknownOperation])
  | method :: params =>
      if method ≠ ascii "GET" ∧ method ≠ ascii "POST" then (request, [unknownOperation])
      else
        match params with
        | [targ, _] =>
            (acceptRequest provider request (if method = ascii "GET" then .get else .post) targ, [])
        | _ => (request, [invalidParameters])

/-- `buf.find_ci(start) == 0`. -/
def startsWith (buf start : Str) : Bool :=
  (provider.casemap.ciStr start).isPrefixOf (provider.casemap.ciStr buf)

/-- `Read` of a line: the request, and what is sent. -/
def readLine (request : Request π) (buf : Str) : Request π × List (Response π) :=
  if request.action = .none then readRequestLine provider request buf
  else if startsWith provider buf (ascii "Cookie: ") then
    ({ request with cookies := readCookies provider.casemap (buf.drop 8) request.cookies }, [])
  else if startsWith provider buf (ascii "Content-Length: ") then
    match tryConvertUnsigned 32 (buf.drop 16) with
    | some len => ({ request with contentLength := len }, [])
    | none => (request, [])
  else
    match cut 58 buf with
    | some (name, rest) =>
        -- The character behind the colon is skipped, and something must follow it.
        if 1 < rest.length then
          ({ request with headers := request.headers.assign provider.casemap name (rest.drop 1) },
            [])
        else (request, [])
    | none => (request, [])

/-! ## Clients -/

/-- `MyHTTPClient`, and what it has sent. -/
structure Client (π : Type) where
  content : Str
  headerDone : Bool
  served : Bool
  request : Request π
  postData : Fields
  ip : Str
  log : List (Response π)

/-- A client that has connected from an address. -/
def Client.connect (ip : Str) : Client π :=
  ⟨[], false, false, .fresh, [], ip, []⟩

/-- `trim`. -/
def trim (text : Str) : Str :=
  let isBlank (c : UInt8) : Bool := c = 32 ∨ c = 9 ∨ c = 13 ∨ c = 10
  (text.dropWhile isBlank).rdropWhile isBlank

/-- A line of the header is taken from the content. -/
def Client.takeLine (client : Client π) (raw rest : Str) : Client π :=
  let token := trim raw
  if token = [] then { client with content := rest, headerDone := true }
  else
    let (request, sent) := readLine provider client.request token
    { client with content := rest, request := request, log := client.log ++ sent }

theorem content_takeLine (client : Client π) (raw rest : Str) :
    (client.takeLine provider raw rest).content = rest := by
  rw [Client.takeLine]
  split_ifs <;> rfl

/-- The loop of `Read` over the lines of the header. -/
def Client.readHeader (client : Client π) : Client π :=
  if client.headerDone then client
  else
    match _nl : cut 10 client.content with
    | none => client
    | some (raw, rest) => (client.takeLine provider raw rest).readHeader
  termination_by client.content.length
  decreasing_by
    rw [content_takeLine, (cut_eq_some_iff.mp _nl).1, List.length_append, List.length_cons]
    omega

/-- The address of a client, which may be behind a proxy that the provider trusts. -/
def forwardedIp (headers : Fields) (ip : Str) : Str :=
  if provider.extIps.contains ip then
    (provider.extHeaders.findSome? fun token => headers.find provider.casemap token).getD ip
  else ip

/-- `Serve`. -/
def Client.serve (client : Client π) : Client π :=
  if client.served then client
  else
    match client.request.page with
    | none =>
        { client with
          served := true
          log := client.log ++ [.error 404 (ascii "Page not found")] }
    | some page =>
        let ip := forwardedIp provider client.request.headers client.ip
        let visit : Visit :=
          { name := client.request.pageName
            ip := ip
            headers := client.request.headers
            cookies := client.request.cookies
            getData := client.request.getData
            postData := client.postData
            content := client.content }
        { client with served := true, ip := ip, log := client.log ++ [.page page visit] }

/-- `Read` of what has come in. -/
def Client.read (client : Client π) (buffer : Str) : Client π :=
  let client := { client with content := client.content ++ buffer }.readHeader provider
  if client.headerDone = false then client
  else if client.request.contentLength ≤ client.content.length then
    { client with
      postData := readQuery provider.casemap client.content client.postData }.serve provider
  else client

/-! ## Connections -/

/-- What happens to a connection: something comes in, or all that was sent is written. -/
inductive Event where
  | read (buffer : Str)
  | written

/-- A connection; there is no client any more once it is closed. -/
structure Connection (π : Type) where
  client : Client π
  closed : Bool

/-- `ProcessRead` and `ProcessWrite`, which closes the connection when nothing is left to write. -/
def Connection.step (connection : Connection π) : Event → Connection π
  | .read buffer =>
      if connection.closed then connection
      else { connection with client := connection.client.read provider buffer }
  | .written =>
      if connection.client.log.isEmpty then connection else { connection with closed := true }

/-- A connection from an address after some events. -/
def connection (ip : Str) (events : List Event) : Connection π :=
  events.foldl (Connection.step provider) ⟨.connect ip, false⟩

/-- What comes in with some events. -/
def received (events : List Event) : Str :=
  events.flatMap fun event =>
    match event with
    | .read buffer => buffer
    | .written => []

/-! ## What a connection should be answered -/

/-- The lines of a header, trimmed, as far as they have come in: whether an empty one has, and what
follows it, or the line that is not complete. -/
structure Header where
  lines : List Str
  done : Bool
  rest : Str
  deriving DecidableEq

/-- The header that a stream starts with. -/
def splitHeader (stream : Str) : Header :=
  match _nl : cut 10 stream with
  | none => ⟨[], false, stream⟩
  | some (raw, rest) =>
      if trim raw = [] then ⟨[], true, rest⟩
      else
        let header := splitHeader rest
        { header with lines := trim raw :: header.lines }
  termination_by stream.length
  decreasing_by
    rw [(cut_eq_some_iff.mp _nl).1, List.length_append, List.length_cons]
    omega

/-- The request of some lines, and what is sent for them. -/
def readLines (request : Request π) : List Str → Request π × List (Response π)
  | [] => (request, [])
  | line :: lines =>
      let (request, sent) := readLine provider request line
      let (request, more) := readLines request lines
      (request, sent ++ more)

/-- The request of the lines of a header. -/
def requestOf (header : Header) : Request π :=
  (readLines provider .fresh header.lines).1

/-- The header has ended, and as much content has come in as it announced. -/
def Complete (header : Header) : Prop :=
  header.done = true ∧ (requestOf provider header).contentLength ≤ header.rest.length

/-- What a request is answered when this content has come in. -/
def serving (request : Request π) (ip content : Str) : Response π :=
  match request.page with
  | none => .error 404 (ascii "Page not found")
  | some page =>
      .page page
        { name := request.pageName
          ip := forwardedIp provider request.headers ip
          headers := request.headers
          cookies := request.cookies
          getData := request.getData
          postData := readQuery provider.casemap content []
          content := content }

/-- A response up to the content, of which there are the values of POST. -/
def Response.values : Response π → Response π
  | .page found visit => .page found { visit with content := [] }
  | .error code message => .error code message

/-- What a stream is answered: errors for lines that are malformed, and a page for the first bytes
of the content. -/
def expected (ip stream : Str) : List (Response π) :=
  let header := splitHeader stream
  let request := requestOf provider header
  (readLines provider .fresh header.lines).2 ++
    if header.done = true ∧ request.contentLength ≤ header.rest.length then
      [(serving provider request ip (header.rest.take request.contentLength)).values]
    else []

/-- A stream is answered once, and in the same way however it comes in. -/
def HandledOnce (ip stream : Str) : Prop :=
  (∀ events, received events = stream →
      (connection provider ip events).client.log.map Response.values =
        expected provider ip stream) ∧
    (expected provider ip stream).length ≤ 1

/-- A request line that is well-formed. -/
def isRequestLine (line : Str) : Bool :=
  match (Sepstream.new line 32 false).getTokens with
  | [method, _, _] => method == ascii "GET" || method == ascii "POST"
  | _ => false

/-- The lines before the first request line that is well-formed. -/
def malformed (lines : List Str) : List Str :=
  lines.takeWhile fun line => !isRequestLine line

/-- At most one line is malformed, and none in a request that is complete; and for a page that is
found, what comes in behind the announced content changes no value of POST. -/
structure Single (stream : Str) : Prop where
  short : (malformed (splitHeader stream).lines).length ≤ 1
  none : Complete provider (splitHeader stream) → malformed (splitHeader stream).lines = []
  posts : Complete provider (splitHeader stream) →
    (requestOf provider (splitHeader stream)).page.isSome → ∀ count,
    (requestOf provider (splitHeader stream)).contentLength ≤ count →
    count ≤ (splitHeader stream).rest.length →
    readQuery provider.casemap ((splitHeader stream).rest.take count) [] =
      readQuery provider.casemap ((splitHeader stream).rest.take
        (requestOf provider (splitHeader stream)).contentLength) []

variable {provider} {request : Request π} {client : Client π} {header : Header}
  {ip stream more : Str}

/-! ## Headers -/

theorem splitHeader_none (incomplete : 10 ∉ stream) :
    splitHeader stream = ⟨[], false, stream⟩ := by
  rw [splitHeader]
  split
  · rfl
  · rename_i nl
    rw [cut_eq_none_iff.mpr incomplete] at nl
    cases nl

theorem splitHeader_line {raw : Str} (noNewline : 10 ∉ raw) (rest : Str) :
    splitHeader (raw ++ 10 :: rest) =
      if trim raw = [] then ⟨[], true, rest⟩
      else { splitHeader rest with lines := trim raw :: (splitHeader rest).lines } := by
  rw [splitHeader]
  split
  · rename_i nl
    rw [cut_append noNewline] at nl
    cases nl
  · rename_i nl
    rw [cut_append noNewline] at nl
    cases nl
    rfl

/-- What has come in of a header goes on with what comes in next. -/
theorem splitHeader_append (stream more : Str) :
    splitHeader (stream ++ more) =
      if (splitHeader stream).done then
        { splitHeader stream with rest := (splitHeader stream).rest ++ more }
      else
        { splitHeader ((splitHeader stream).rest ++ more) with
          lines := (splitHeader stream).lines ++
            (splitHeader ((splitHeader stream).rest ++ more)).lines } := by
  induction stream using @cutInduction _ _ (10 : UInt8) with
  | absent text incomplete =>
      rw [splitHeader_none incomplete]
      rfl
  | piece raw rest noNewline ih =>
      rw [List.append_assoc, List.cons_append, splitHeader_line noNewline,
        splitHeader_line noNewline]
      by_cases empty : trim raw = []
      · rw [if_pos empty, if_pos empty]
        rfl
      · rw [if_neg empty, if_neg empty, ih]
        dsimp only
        split_ifs <;> rfl

theorem readLines_append (request : Request π) (lines lines' : List Str) :
    readLines provider request (lines ++ lines') =
      ((readLines provider (readLines provider request lines).1 lines').1,
        (readLines provider request lines).2 ++
          (readLines provider (readLines provider request lines).1 lines').2) := by
  induction lines generalizing request with
  | nil => rfl
  | cons line lines ih =>
      rw [List.cons_append, readLines, readLines]
      dsimp only
      rw [ih, List.append_assoc]

theorem readHeader_done (done : client.headerDone = true) :
    client.readHeader provider = client := by
  rw [Client.readHeader, if_pos done]

theorem readHeader_incomplete (reading : client.headerDone = false)
    (incomplete : 10 ∉ client.content) : client.readHeader provider = client := by
  rw [Client.readHeader, reading, if_neg Bool.false_ne_true]
  split
  · rfl
  · rename_i nl
    rw [cut_eq_none_iff.mpr incomplete] at nl
    cases nl

theorem readHeader_line {raw rest : Str} (reading : client.headerDone = false)
    (isContent : client.content = raw ++ 10 :: rest) (noNewline : 10 ∉ raw) :
    client.readHeader provider = (client.takeLine provider raw rest).readHeader provider := by
  rw [Client.readHeader, reading, if_neg Bool.false_ne_true]
  split
  · rename_i nl
    rw [isContent, cut_append noNewline] at nl
    cases nl
  · rename_i nl
    rw [isContent, cut_append noNewline] at nl
    cases nl
    rfl

theorem takeLine_empty {raw rest : Str} (empty : trim raw = []) :
    client.takeLine provider raw rest = { client with content := rest, headerDone := true } :=
  if_pos empty

theorem takeLine_line {raw rest : Str} (nonempty : trim raw ≠ []) :
    client.takeLine provider raw rest =
      { client with
        content := rest
        request := (readLine provider client.request (trim raw)).1
        log := client.log ++ (readLine provider client.request (trim raw)).2 } :=
  if_neg nonempty

/-- The loop over the lines of the header reads what there is of it. -/
theorem readHeader_eq (client : Client π) (reading : client.headerDone = false) :
    client.readHeader provider =
      { client with
        content := (splitHeader client.content).rest
        headerDone := (splitHeader client.content).done
        request := (readLines provider client.request (splitHeader client.content).lines).1
        log := client.log ++
          (readLines provider client.request (splitHeader client.content).lines).2 } := by
  induction client using Client.readHeader.induct provider with
  | case1 client done => rw [reading] at done; cases done
  | case2 client _ nl =>
      rw [readHeader_incomplete reading (cut_eq_none_iff.mp nl),
        splitHeader_none (cut_eq_none_iff.mp nl), readLines, List.append_nil]
      cases client
      cases reading
      rfl
  | case3 client _ raw rest nl ih =>
      obtain ⟨isContent, noNewline⟩ := cut_eq_some_iff.mp nl
      rw [readHeader_line reading isContent noNewline, isContent, splitHeader_line noNewline]
      by_cases empty : trim raw = []
      · rw [takeLine_empty empty, if_pos empty, readHeader_done rfl, readLines, List.append_nil]
      · rw [takeLine_line empty] at ih
        rw [takeLine_line empty, if_neg empty, ih reading, readLines, List.append_assoc]

/-! ## What has come in -/

/-- A client that waits: it has read what there is of a header. -/
def clientOf (provider : Provider π) (ip stream : Str) : Client π :=
  let header := splitHeader stream
  { content := header.rest
    headerDone := header.done
    served := false
    request := requestOf provider header
    postData := []
    ip := ip
    log := (readLines provider .fresh header.lines).2 }

/-- A client that has served with so much of the content. -/
structure Served (provider : Provider π) (ip stream : Str) (client : Client π) : Prop where
  complete : Complete provider (splitHeader stream)
  served : client.served = true
  headerDone : client.headerDone = true
  content : client.content = (splitHeader stream).rest
  request : client.request = requestOf provider (splitHeader stream)
  log : ∃ count, (requestOf provider (splitHeader stream)).contentLength ≤ count ∧
    count ≤ (splitHeader stream).rest.length ∧
    client.log = (readLines provider .fresh (splitHeader stream).lines).2 ++
      [serving provider (requestOf provider (splitHeader stream)) ip
        ((splitHeader stream).rest.take count)]

/-- What a client is after a stream has come in. -/
inductive HasRead (provider : Provider π) (ip stream : Str) : (client : Client π) → Prop
  | waiting : ¬Complete provider (splitHeader stream) →
      HasRead provider ip stream (clientOf provider ip stream)
  | served (client : Client π) : Served provider ip stream client →
      HasRead provider ip stream client

/-- Once the header has ended, more content follows what there is. -/
theorem splitHeader_append_of_done (done : (splitHeader stream).done = true) (more : Str) :
    splitHeader (stream ++ more) =
      { splitHeader stream with rest := (splitHeader stream).rest ++ more } := by
  rw [splitHeader_append, done, if_pos rfl]

theorem requestOf_append (reading : (splitHeader stream).done = false) :
    readLines provider .fresh (splitHeader (stream ++ more)).lines =
      ((readLines provider (requestOf provider (splitHeader stream))
          (splitHeader ((splitHeader stream).rest ++ more)).lines).1,
        (readLines provider .fresh (splitHeader stream).lines).2 ++
          (readLines provider (requestOf provider (splitHeader stream))
            (splitHeader ((splitHeader stream).rest ++ more)).lines).2) := by
  rw [splitHeader_append, reading, if_neg Bool.false_ne_true, readLines_append, requestOf]

/-- A client that waits reads on as if all had come in at once. -/
theorem readHeader_clientOf_append (provider : Provider π) (ip stream more : Str) :
    ({ clientOf provider ip stream with
        content := (splitHeader stream).rest ++ more } : Client π).readHeader provider =
      clientOf provider ip (stream ++ more) := by
  cases done : (splitHeader stream).done with
  | true =>
      rw [readHeader_done done, clientOf, clientOf, splitHeader_append_of_done done]
      rfl
  | false =>
      rw [readHeader_eq _ done]
      have lines := @requestOf_append π provider stream more done
      simp only [clientOf, requestOf, lines]
      rw [splitHeader_append stream more, done, if_neg Bool.false_ne_true]

/-- Once there is enough content the page is served with what there is. -/
theorem read_of_readHeader {next : Client π}
    (isNext : ({ client with content := client.content ++ more } : Client π).readHeader provider =
      next) :
    client.read provider more =
      if next.headerDone = true ∧ next.request.contentLength ≤ next.content.length then
        ({ next with postData := readQuery provider.casemap next.content next.postData } :
          Client π).serve provider
      else next := by
  rw [Client.read, isNext]
  cases next.headerDone <;> simp

/-- A client that has not yet served answers with what there is. -/
theorem serve_eq (waits : client.served = false) :
    (client.serve provider).served = true ∧
      (client.serve provider).headerDone = client.headerDone ∧
      (client.serve provider).content = client.content ∧
      (client.serve provider).request = client.request ∧
      (client.serve provider).log = client.log ++
        match client.request.page with
        | none => [.error 404 (ascii "Page not found")]
        | some page => [.page page
            { name := client.request.pageName
              ip := forwardedIp provider client.request.headers client.ip
              headers := client.request.headers
              cookies := client.request.cookies
              getData := client.request.getData
              postData := client.postData
              content := client.content }] := by
  rw [Client.serve, waits, if_neg Bool.false_ne_true]
  cases client.request.page with
  | none => exact ⟨rfl, rfl, rfl, rfl, rfl⟩
  | some page => exact ⟨rfl, rfl, rfl, rfl, rfl⟩

/-- What a client that waits sends when there is enough content. -/
theorem log_serve_clientOf (provider : Provider π) (ip stream : Str) :
    (({ clientOf provider ip stream with
        postData := readQuery provider.casemap (clientOf provider ip stream).content
          (clientOf provider ip stream).postData } : Client π).serve provider).log =
      (readLines provider .fresh (splitHeader stream).lines).2 ++
        [serving provider (requestOf provider (splitHeader stream)) ip
          (splitHeader stream).rest] := by
  refine (serve_eq rfl).2.2.2.2.trans ?_
  rw [serving]
  simp only [clientOf]
  cases (requestOf provider (splitHeader stream)).page <;> rfl

theorem served_serve (complete : Complete provider (splitHeader stream)) :
    Served provider ip stream
      (({ clientOf provider ip stream with
          postData := readQuery provider.casemap (clientOf provider ip stream).content
            (clientOf provider ip stream).postData } : Client π).serve provider) := by
  obtain ⟨served, headerDone, content, request, _⟩ := @serve_eq π provider
    { clientOf provider ip stream with
      postData := readQuery provider.casemap (clientOf provider ip stream).content
        (clientOf provider ip stream).postData } rfl
  refine ⟨complete, served, headerDone.trans complete.1, content, request,
    (splitHeader stream).rest.length, complete.2, Nat.le_refl _, ?_⟩
  rw [List.take_length]
  exact log_serve_clientOf provider ip stream

/-- What has been served does not change with what comes in next. -/
theorem Served.append (served : Served provider ip stream client) (more : Str) :
    Served provider ip (stream ++ more) { client with content := client.content ++ more } := by
  have isHeader := splitHeader_append_of_done served.complete.1 more
  have isRequest : requestOf provider (splitHeader (stream ++ more)) =
      requestOf provider (splitHeader stream) := by
    rw [isHeader]
    rfl
  obtain ⟨count, enough, le, isLog⟩ := served.log
  refine ⟨?_, served.served, served.headerDone, ?_, ?_, count, ?_, ?_, ?_⟩
  · rw [Complete, isRequest, isHeader]
    refine ⟨served.complete.1, Nat.le_trans served.complete.2 ?_⟩
    exact List.length_append ▸ Nat.le_add_right _ _
  · rw [isHeader, served.content]
  · rw [isRequest, served.request]
  · rwa [isRequest]
  · rw [isHeader]
    exact Nat.le_trans le (List.length_append ▸ Nat.le_add_right _ _)
  · rw [isRequest, isHeader]
    dsimp only
    rw [List.take_append_of_le_length le, isLog]

/-- A client that has served answers nothing else. -/
theorem Served.read (served : Served provider ip stream client) (more : Str) :
    Served provider ip (stream ++ more) (client.read provider more) := by
  have same := served.append more
  rw [read_of_readHeader (readHeader_done served.headerDone)]
  split_ifs
  · rw [Client.serve]
    dsimp only
    rw [served.served, if_pos rfl]
    exact ⟨same.complete, rfl, same.headerDone, same.content, same.request, same.log⟩
  · exact same

/-- What a client is once more has come in. -/
theorem HasRead.read (hasRead : HasRead provider ip stream client) (more : Str) :
    HasRead provider ip (stream ++ more) (client.read provider more) := by
  cases hasRead with
  | served _ served => exact .served _ (served.read more)
  | waiting incomplete =>
      rw [read_of_readHeader (readHeader_clientOf_append provider ip stream more)]
      split_ifs with complete
      · exact .served _ (served_serve complete)
      · exact .waiting complete

/-! ## Malformed lines -/

theorem readLine_of_action (reading : request.action ≠ .none) (line : Str) :
    (readLine provider request line).1.action ≠ .none ∧
      (readLine provider request line).2 = [] := by
  rw [readLine, if_neg reading]
  split_ifs
  · exact ⟨reading, rfl⟩
  · split
    · exact ⟨reading, rfl⟩
    · exact ⟨reading, rfl⟩
  · split
    · split_ifs
      · exact ⟨reading, rfl⟩
      · exact ⟨reading, rfl⟩
    · exact ⟨reading, rfl⟩

theorem action_acceptRequest (action : Action) (targ : Str) :
    (acceptRequest provider request action targ).action = action := by
  rw [acceptRequest]
  split <;> rfl

/-- A request line is accepted, and any other line in its place is an error. -/
theorem readRequestLine_cases (provider : Provider π) (request : Request π) (line : Str) :
    (isRequestLine line = true ∧ ∃ action targ, action ≠ Action.none ∧
      readRequestLine provider request line = (acceptRequest provider request action targ, [])) ∨
    (isRequestLine line = false ∧ ∃ message,
      readRequestLine provider request line = (request, [.error 400 message])) := by
  rw [isRequestLine, readRequestLine]
  generalize (Sepstream.new line 32 false).getTokens = tokens
  cases tokens with
  | nil => exact .inr ⟨rfl, _, rfl⟩
  | cons method params =>
      dsimp only
      by_cases unknown : method ≠ ascii "GET" ∧ method ≠ ascii "POST"
      · rw [if_pos unknown]
        refine .inr ⟨?_, _, rfl⟩
        split
        · rename_i same
          cases same
          simp [unknown.1, unknown.2]
        · rfl
      · rw [if_neg unknown]
        match params with
        | [targ, version] =>
            refine .inl ⟨?_, if method = ascii "GET" then .get else .post, targ, ?_, rfl⟩
            · rw [Bool.or_eq_true, beq_iff_eq, beq_iff_eq]
              tauto
            · split_ifs <;> simp
        | [] => exact .inr ⟨rfl, _, rfl⟩
        | [targ] => exact .inr ⟨rfl, _, rfl⟩
        | targ :: version :: more :: params => exact .inr ⟨rfl, _, rfl⟩

theorem readLines_of_action (reading : request.action ≠ .none) (lines : List Str) :
    (readLines provider request lines).2 = [] := by
  induction lines generalizing request with
  | nil => rfl
  | cons line lines ih =>
      obtain ⟨still, none⟩ := @readLine_of_action π provider request reading line
      rw [readLines]
      dsimp only
      rw [none, ih still]
      rfl

/-- There is one error for each malformed line. -/
theorem readLines_errors (fresh : request.action = .none) (lines : List Str) :
    ∃ messages : List Str,
      (readLines provider request lines).2 = messages.map (Response.error 400) ∧
      messages.length = (malformed lines).length := by
  induction lines with
  | nil => exact ⟨[], rfl, rfl⟩
  | cons line lines ih =>
      rw [readLines, malformed]
      dsimp only
      rw [readLine, if_pos fresh]
      rcases readRequestLine_cases provider request line with
        ⟨isLine, action, targ, known, is⟩ | ⟨isLine, message, is⟩
      · have still : (acceptRequest provider request action targ).action ≠ .none := by
          rw [action_acceptRequest]
          exact known
        refine ⟨[], ?_, ?_⟩
        · rw [is]
          exact readLines_of_action still lines
        · rw [List.takeWhile_cons_of_neg (by simp [isLine])]
      · obtain ⟨messages, isErrors, count⟩ := ih
        refine ⟨message :: messages, ?_, ?_⟩
        · rw [is, isErrors]
          rfl
        · rw [List.takeWhile_cons_of_pos (by simp [isLine]), List.length_cons, List.length_cons,
            count, malformed]

/-! ## Values -/

/-- Errors have no content. -/
theorem map_values_errors (provider : Provider π) (lines : List Str) :
    (readLines provider .fresh lines).2.map Response.values =
      (readLines provider .fresh lines).2 := by
  obtain ⟨messages, isErrors, _⟩ := @readLines_errors π provider .fresh rfl lines
  rw [isErrors, List.map_map]
  rfl

theorem length_errors (provider : Provider π) (lines : List Str) :
    (readLines provider .fresh lines).2.length = (malformed lines).length := by
  obtain ⟨messages, isErrors, count⟩ := @readLines_errors π provider .fresh rfl lines
  rw [isErrors, List.length_map, count]

theorem values_serving_of_none (none : request.page = none) (ip content content' : Str) :
    (serving provider request ip content).values =
      (serving provider request ip content').values := by
  rw [serving, serving, none]

theorem values_serving_iff {page : π} (found : request.page = some page)
    (ip content content' : Str) :
    (serving provider request ip content).values =
        (serving provider request ip content').values ↔
      readQuery provider.casemap content [] = readQuery provider.casemap content' [] := by
  rw [serving, serving, found]
  simp [Response.values]

/-! ## Connections -/

/-- What of a stream has come in before a connection was closed, and what was lost. -/
structure Reached (provider : Provider π) (ip stream : Str) (connection : Connection π)
    (here lost : Str) : Prop where
  isStream : stream = here ++ lost
  hasRead : HasRead provider ip here connection.client
  goesOn : connection.closed = false → lost = []
  closed : connection.closed = true → connection.client.log ≠ []

theorem connect_eq (provider : Provider π) (ip : Str) :
    Client.connect ip = clientOf provider ip [] := by
  rw [clientOf, splitHeader_none List.not_mem_nil]
  rfl

theorem received_append_read (events : List Event) (buffer : Str) :
    received (events ++ [.read buffer]) = received events ++ buffer := by
  simp [received]

theorem received_append_written (events : List Event) :
    received (events ++ [.written]) = received events := by
  simp [received]

theorem connection_append (events : List Event) (event : Event) :
    connection provider ip (events ++ [event]) =
      (connection provider ip events).step provider event := by
  rw [connection, List.foldl_append]
  rfl

theorem exists_reached (provider : Provider π) (ip : Str) (events : List Event) :
    ∃ here lost, Reached provider ip (received events) (connection provider ip events)
      here lost := by
  induction events using List.reverseRecOn with
  | nil =>
      refine ⟨[], [], rfl, ?_, fun _ => rfl, fun closed => by cases closed⟩
      have incomplete : ¬Complete provider (splitHeader []) := by
        rw [splitHeader_none List.not_mem_nil]
        exact fun complete => Bool.false_ne_true complete.1
      have start : (connection provider ip []).client = clientOf provider ip [] :=
        connect_eq provider ip
      rw [start]
      exact .waiting incomplete
  | append_singleton events event ih =>
      obtain ⟨here, lost, reached⟩ := ih
      rw [connection_append]
      cases event with
      | read buffer =>
          rw [received_append_read, Connection.step]
          cases closed : (connection provider ip events).closed with
          | true =>
              rw [if_pos rfl]
              refine ⟨here, lost ++ buffer, ?_, reached.hasRead, ?_, reached.closed⟩
              · rw [reached.isStream, List.append_assoc]
              · exact fun isOpen => absurd (closed.symm.trans isOpen) (by decide)
          | false =>
              rw [if_neg Bool.false_ne_true]
              refine ⟨here ++ buffer, [], ?_, reached.hasRead.read buffer, fun _ => rfl, nofun⟩
              rw [reached.isStream, reached.goesOn closed, List.append_nil, List.append_nil]
      | written =>
          rw [received_append_written, Connection.step]
          split_ifs with empty
          · exact ⟨here, lost, reached⟩
          · refine ⟨here, lost, reached.isStream, reached.hasRead, nofun, ?_⟩
            exact fun _ none => empty (List.isEmpty_iff.mpr none)

/-- A connection that gets all at once, and is then closed. -/
theorem log_of_read (complete : Complete provider (splitHeader stream)) (more : Str) :
    (connection provider ip [.read stream, .written, .read more]).client.log =
      (readLines provider .fresh (splitHeader stream).lines).2 ++
        [serving provider (requestOf provider (splitHeader stream)) ip
          (splitHeader stream).rest] := by
  have read : ((Client.connect ip).read provider stream).log =
      (readLines provider .fresh (splitHeader stream).lines).2 ++
        [serving provider (requestOf provider (splitHeader stream)) ip
          (splitHeader stream).rest] := by
    have isNext := readHeader_clientOf_append provider ip [] stream
    rw [connect_eq provider ip, read_of_readHeader isNext, List.nil_append]
    exact (congrArg Client.log (if_pos complete)).trans (log_serve_clientOf provider ip stream)
  have some : ((Client.connect ip).read provider stream).log.isEmpty = false := by
    rw [read]
    simp
  have isConnection : connection provider ip [.read stream, .written, .read more] =
      ⟨(Client.connect ip).read provider stream, true⟩ := by
    simp only [connection, List.foldl_cons, List.foldl_nil, Connection.step, some,
      Bool.false_eq_true, if_false, if_true]
  rw [isConnection, read]

/-- The part of a stream that ends within the content. -/
theorem exists_front (done : (splitHeader stream).done = true) (count : Nat) :
    ∃ front, front ++ (splitHeader stream).rest.drop count = stream ∧
      splitHeader front =
        { splitHeader stream with rest := (splitHeader stream).rest.take count } := by
  induction stream using @cutInduction _ _ (10 : UInt8) with
  | absent text incomplete =>
      rw [splitHeader_none incomplete] at done
      cases done
  | piece raw rest noNewline ih =>
      rw [splitHeader_line noNewline] at done ⊢
      by_cases empty : trim raw = []
      · rw [if_pos empty]
        refine ⟨raw ++ 10 :: rest.take count, ?_, ?_⟩
        · rw [List.append_assoc, List.cons_append, List.take_append_drop]
        · rw [splitHeader_line noNewline, if_pos empty]
      · rw [if_neg empty] at done ⊢
        obtain ⟨front, isRest, isHeader⟩ := ih done
        refine ⟨raw ++ 10 :: front, ?_, ?_⟩
        · rw [List.append_assoc, List.cons_append, isRest]
        · rw [splitHeader_line noNewline, if_neg empty, isHeader]

/-! ## Single responses -/

theorem expected_of_complete (complete : Complete provider (splitHeader stream)) :
    expected provider ip stream =
      (readLines provider .fresh (splitHeader stream).lines).2 ++
        [(serving provider (requestOf provider (splitHeader stream)) ip
          ((splitHeader stream).rest.take
            (requestOf provider (splitHeader stream)).contentLength)).values] :=
  congrArg _ (if_pos complete)

theorem expected_of_not_complete (incomplete : ¬Complete provider (splitHeader stream)) :
    expected provider ip stream = (readLines provider .fresh (splitHeader stream).lines).2 :=
  (congrArg _ (if_neg incomplete)).trans (List.append_nil _)

theorem length_expected_le_iff :
    (expected provider ip stream).length ≤ 1 ↔
      (malformed (splitHeader stream).lines).length ≤ 1 ∧
        (Complete provider (splitHeader stream) → malformed (splitHeader stream).lines = []) := by
  by_cases complete : Complete provider (splitHeader stream)
  · rw [expected_of_complete complete, List.length_append, length_errors,
      ← List.length_eq_zero_iff, List.length_singleton]
    constructor
    · exact fun le => ⟨by omega, fun _ => by omega⟩
    · exact fun ⟨_, clear⟩ => by rw [clear complete]
  · rw [expected_of_not_complete complete, length_errors]
    exact ⟨fun le => ⟨le, fun is => absurd is complete⟩, And.left⟩

/-- The errors for what has come in stay when more comes in. -/
theorem errors_prefix (provider : Provider π) (here lost : Str) :
    (readLines provider .fresh (splitHeader here).lines).2 <+:
      (readLines provider .fresh (splitHeader (here ++ lost)).lines).2 := by
  cases done : (splitHeader here).done with
  | true => rw [splitHeader_append_of_done done]
  | false =>
      rw [requestOf_append done]
      exact List.prefix_append _ _

/-- A client that has served has sent what is expected when what comes behind the content changes
no values. -/
theorem Served.values (served : Served provider ip stream client)
    (single : Single provider stream) :
    client.log.map Response.values = expected provider ip stream := by
  obtain ⟨count, enough, le, isLog⟩ := served.log
  rw [isLog, expected_of_complete served.complete, List.map_append, map_values_errors,
    List.map_singleton]
  congr 2
  cases found : (requestOf provider (splitHeader stream)).page with
  | none => exact values_serving_of_none found ip _ _
  | some page =>
      rw [values_serving_iff found]
      exact single.posts served.complete (found ▸ rfl) count enough le

/-- Every stream that is answered once, is answered so however it comes in. -/
theorem Single.handled (single : Single provider stream) {events : List Event}
    (isStream : received events = stream) :
    (connection provider ip events).client.log.map Response.values =
      expected provider ip stream := by
  obtain ⟨here, lost, reached⟩ := exists_reached provider ip events
  have whole := isStream.symm.trans reached.isStream
  generalize connection provider ip events = connection at reached ⊢
  obtain ⟨client, closed⟩ := connection
  cases reached.hasRead with
  | served _ served =>
      have same := served.append lost
      rw [← whole] at same
      exact same.values single
  | waiting incomplete =>
      have errors : (readLines provider .fresh (splitHeader here).lines).2 =
          expected provider ip stream := by
        cases closed with
        | false =>
            have nothing := reached.goesOn rfl
            rw [nothing, List.append_nil] at whole
            rw [whole, expected_of_not_complete incomplete]
        | true =>
            -- It was closed for an error, which is the only one there is.
            have front := errors_prefix provider here lost
            have some : (readLines provider .fresh (splitHeader here).lines).2 ≠ [] :=
              reached.closed rfl
            rw [← whole] at front
            have length := length_errors provider (splitHeader stream).lines
            have short := single.short
            have isWaiting : ¬Complete provider (splitHeader stream) := by
              intro complete
              rw [single.none complete] at length
              exact some (List.prefix_nil.mp (List.length_eq_zero_iff.mp length ▸ front))
            rw [expected_of_not_complete isWaiting]
            refine front.eq_of_length_le ?_
            have := List.length_pos_iff.mpr some
            omega
      rw [← errors]
      exact map_values_errors provider _

/-- A connection that is answered in one way shows what its values of POST are. -/
theorem HandledOnce.posts (once : HandledOnce provider ip stream)
    (complete : Complete provider (splitHeader stream)) {count : Nat}
    (found : (requestOf provider (splitHeader stream)).page.isSome)
    (enough : (requestOf provider (splitHeader stream)).contentLength ≤ count)
    (le : count ≤ (splitHeader stream).rest.length) :
    readQuery provider.casemap ((splitHeader stream).rest.take count) [] =
      readQuery provider.casemap ((splitHeader stream).rest.take
        (requestOf provider (splitHeader stream)).contentLength) [] := by
  obtain ⟨front, isStream, isHeader⟩ := exists_front complete.1 count
  have isRequest : requestOf provider (splitHeader front) =
      requestOf provider (splitHeader stream) := by
    rw [isHeader]
    rfl
  have completeFront : Complete provider (splitHeader front) := by
    rw [Complete, isRequest, isHeader]
    refine ⟨complete.1, ?_⟩
    rwa [List.length_take, Nat.min_eq_left le]
  have handled := once.1 [.read front, .written, .read ((splitHeader stream).rest.drop count)]
    (by simp [received, isStream])
  obtain ⟨page, isPage⟩ := Option.isSome_iff_exists.mp found
  rw [log_of_read completeFront, isRequest, isHeader, expected_of_complete complete,
    List.map_append, map_values_errors, List.map_singleton, List.append_cancel_left_eq,
    List.singleton_inj, values_serving_iff isPage] at handled
  exact handled

/-- A stream is answered once, however it comes in, just if at most one of its lines is malformed,
none when the request is complete, and nothing behind the content changes what is posted. -/
theorem handledOnce_iff_single (provider : Provider π) (ip stream : Str) :
    HandledOnce provider ip stream ↔ Single provider stream := by
  constructor
  · intro once
    obtain ⟨short, none⟩ := length_expected_le_iff.mp once.2
    exact ⟨short, none, fun complete found _ enough le => once.posts complete found enough le⟩
  · intro single
    exact ⟨fun _ isStream => single.handled isStream,
      length_expected_le_iff.mpr ⟨single.short, single.none⟩⟩

/-- A provider without pages. -/
def noPages : Provider Unit :=
  { casemap := .ascii, findPage := fun _ => none, extIps := [], extHeaders := [] }

/-- A line that is no request before an empty one: an error is sent for it, and then another one
because there is no page. -/
theorem not_handledOnce_malformed :
    ¬HandledOnce noPages (ascii "10.0.0.1") (ascii "FOO\n\n") := by
  intro once
  have sent := once.2
  revert sent
  decide +kernel

end Anope.Http
