import GreenGateway.Config.CanonicalJson
import GreenGateway.Kernel.Lanes

/-! Rendering a tool call as an upstream request: the path template filled in one
placeholder at a time, the URL around it, the query, the body, and the last look at the
path the URL ended up with. -/

namespace GreenGateway.Tools

open Foundation Config

/-- What lies outside the repository: methods, URLs and JSON bytes. -/
class HttpTexts where
  /-- `Method::from_str`: the method's own text, or what is wrong with it. -/
  parseMethod : String → Except String String
  /-- What `Url::parse` says against a text, if anything. -/
  urlProblem : String → Option String
  /-- `serde_json::to_vec`. -/
  toVec : Json → Except String (List UInt8)

section Definitions

structure QueryParamMapping where
  argName : String
  queryName : String
  required : Bool := false
  deriving DecidableEq, Repr

inductive BodyMappingMode where
  /-- The entire argument object is the body. -/
  | wholeArgsJson
  /-- The argument object without path placeholders and mapped query arguments. -/
  | bodyArgsJson
  deriving DecidableEq, Repr

structure BodyMapping where
  mode : BodyMappingMode
  deriving DecidableEq, Repr

structure HttpToolMapping where
  method : String
  pathTemplate : String
  queryParams : List QueryParamMapping := []
  body : Option BodyMapping := none
  deriving DecidableEq, Repr

inductive ToolTarget where
  | http (connectionId : String) (mapping : HttpToolMapping)
  | mcp (connectionId remoteToolName : String)
  | composite (connectionId : String)
  deriving DecidableEq, Repr

structure ToolDefinition where
  name : String
  inputSchema : Json
  target : Option ToolTarget := none
  upstream : HttpToolMapping

/-- Why a request could not be rendered. -/
inductive ToolExecutorError where
  | missingUpstreamUrl
  | invalidMapping (toolName message : String)
  | missingArgument (toolName argName location : String)
  | unsupportedArgumentValue (toolName argName location valueType : String)
  | pathSegmentIsDotSegment (toolName argName : String)
  | invalidMethod (toolName method message : String)
  | bodySerialize (toolName message : String)
  | urlBuild (toolName message : String)
  deriving DecidableEq, Repr

end Definitions

section Arguments

def jsonValueType : Json → String
  | .null => "null"
  | .bool _ => "boolean"
  | .number _ => "number"
  | .string _ => "string"
  | .array _ => "array"
  | .object _ => "object"

def optionalArgument (args : Json) (argName : String) : Option Json := args.get argName

def requiredArgument (tool : ToolDefinition) (args : Json) (argName location : String) :
    Except ToolExecutorError Json :=
  okOr (optionalArgument args argName) (.missingArgument tool.name argName location)

/-- The text of a scalar value. -/
def scalarText? : Json → Option String
  | .string value => some value
  | .number text => some text
  | .bool value => some (if value then "true" else "false")
  | .null | .array _ | .object _ => none

def scalarArgumentToString (tool : ToolDefinition) (argName location : String) (value : Json) :
    Except ToolExecutorError String :=
  okOr (scalarText? value)
    (.unsupportedArgumentValue tool.name argName location (jsonValueType value))

def isDotSegment (value : String) : Bool := value == "." || value == ".."

/-- Whether `PATH_SEGMENT_ARGUMENT_ENCODE_SET` or the encoder's own rule for bytes
outside ASCII escapes a byte. -/
def escapesByte (byte : UInt8) : Bool :=
  decide (byte.toNat < 0x20 ∨ 0x7f ≤ byte.toNat) ||
    [' ', '"', '#', '%', '.', '<', '>', '?', '\x60', '\x7b', '\x7d', '/', '\\'].any fun char =>
      char.toNat == byte.toNat

/-- An uppercase hexadecimal digit. -/
def upperHexDigit (value : Nat) : Char :=
  if value < 10 then Char.ofNat ('0'.toNat + value) else Char.ofNat ('A'.toNat + (value - 10))

def percentEncodeByte (byte : UInt8) : List Char :=
  ['%', upperHexDigit (byte.toNat / 16), upperHexDigit (byte.toNat % 16)]

/-- One byte of an argument, as it stands in a path segment. -/
def encodeByte (byte : UInt8) : List Char :=
  if escapesByte byte then percentEncodeByte byte else [Char.ofNat byte.toNat]

def encodePathSegmentArgument (value : String) : List Char := (utf8 value).flatMap encodeByte

end Arguments

section Templates

def validatePlaceholderName (tool : ToolDefinition) (argName : String) :
    Except ToolExecutorError Unit := do
  refuse argName.toList.isEmpty
    (.invalidMapping tool.name "path_template contains an empty placeholder")
  refuse (argName.toList.any fun char => char == '\x7b' || char == '\x7d')
    (.invalidMapping tool.name ("path_template placeholder '" ++ argName ++ "' contains a brace"))

/-- Whether a schema that lists its properties lists the argument. -/
def declaredInSchema (schema : Json) (argName : String) : Bool :=
  match (schema.get "properties").bind Json.asObject with
  | some properties => (Json.lookup argName properties).isSome
  | none => true

def validatePlaceholderDeclaredInSchema (tool : ToolDefinition) (argName : String) :
    Except ToolExecutorError Unit :=
  refuse (!declaredInSchema tool.inputSchema argName)
    (.invalidMapping tool.name ("path_template placeholder '" ++ argName ++
      "' is not declared in input_json_schema.properties"))

/-- What one placeholder becomes. -/
def renderPlaceholder (tool : ToolDefinition) (args : Json) (argName : String) :
    Except ToolExecutorError (List Char) := do
  validatePlaceholderName tool argName
  validatePlaceholderDeclaredInSchema tool argName
  let value ← requiredArgument tool args argName "path"
  let value ← scalarArgumentToString tool argName "path" value
  refuse (isDotSegment value) (.pathSegmentIsDotSegment tool.name argName)
  .ok (encodePathSegmentArgument value)

/-- Renders the rest of a template; `name` is what has been read of an open placeholder. -/
def renderFrom (tool : ToolDefinition) (args : Json) :
    List Char → Option (List Char) → Except ToolExecutorError (List Char)
  | [], none => .ok []
  | [], some _ => .error (.invalidMapping tool.name "path_template contains an unmatched '\x7b'")
  | char :: rest, none =>
    if char = '\x7d' then
      .error (.invalidMapping tool.name "path_template contains an unmatched '\x7d'")
    else if char = '\x7b' then renderFrom tool args rest (some [])
    else do
      let rendered ← renderFrom tool args rest none
      .ok (char :: rendered)
  | char :: rest, some name =>
    if char = '\x7d' then do
      let value ← renderPlaceholder tool args (String.ofList name)
      let rendered ← renderFrom tool args rest none
      .ok (value ++ rendered)
    else renderFrom tool args rest (some (name ++ [char]))

def renderPathTemplate (tool : ToolDefinition) (args : Json) :
    Except ToolExecutorError (List Char) := do
  let template := tool.upstream.pathTemplate
  refuse (!Text.startsWith template "/")
    (.invalidMapping tool.name "path_template must start with '/'")
  refuse (template.toList.any fun char => char == '?' || char == '#')
    (.invalidMapping tool.name "path_template must not include query strings or fragments")
  renderFrom tool args template.toList none

/-- The placeholder names of a template, with `name` open. -/
def placeholderNames : List Char → Option (List Char) → List String
  | [], _ => []
  | char :: rest, none =>
    if char = '\x7b' then placeholderNames rest (some []) else placeholderNames rest none
  | char :: rest, some name =>
    if char = '\x7d' then String.ofList name :: placeholderNames rest none
    else placeholderNames rest (some (name ++ [char]))

/-- The argument object without path placeholders and mapped query arguments. -/
def bodyArgumentsWithoutPathAndQuery (tool : ToolDefinition) (args : Json) : Json :=
  match args with
  | .object members =>
    let excluded := placeholderNames tool.upstream.pathTemplate.toList none ++
      tool.upstream.queryParams.map (·.argName)
    .object (members.filter fun member => !excluded.contains member.1)
  | _ => args

end Templates

section Urls

/-- Whether a segment is read as the current directory. -/
def isSingleDot (segment : List Char) : Bool :=
  [['.'], ['%', '2', 'e']].contains (segment.map Char.toLower)

/-- Whether a segment is read as the parent directory. -/
def isDoubleDot (segment : List Char) : Bool :=
  [['.', '.'], ['.', '%', '2', 'e'], ['%', '2', 'e', '.'], ['%', '2', 'e', '%', '2', 'e']].contains
    (segment.map Char.toLower)

/-- The segments a URL keeps: a dot segment goes, the parent's with the segment before it,
and one at the end leaves an empty segment. -/
def collapseFrom (kept : List (List Char)) : List (List Char) → List (List Char)
  | [] => kept
  | segment :: rest =>
    let ending : List (List Char) := if rest.isEmpty then [[]] else []
    if isDoubleDot segment then collapseFrom (kept.dropLast ++ ending) rest
    else if isSingleDot segment then collapseFrom (kept ++ ending) rest
    else collapseFrom (kept ++ [segment]) rest

/-- The segments of an absolute path. -/
def pathSegments (path : List Char) : List (List Char) := (path.splitOn '/').tail

/-- The path of a parsed URL. -/
def urlPath (path : List Char) : String :=
  String.ofList ('/' :: ['/'].intercalate (collapseFrom [] (pathSegments path)))

structure Url where
  origin : String
  path : String
  query : Option (List (String × String)) := none
  deriving DecidableEq, Repr

/-- `Url::parse` of an origin and a path. -/
def Url.parse [HttpTexts] (origin : String) (path : List Char) : Except String Url :=
  match HttpTexts.urlProblem (origin ++ String.ofList path) with
  | some message => .error message
  | none => .ok { origin, path := urlPath path }

end Urls

section Requests

structure ToolUpstreamRequest where
  method : String
  url : Url
  /-- The content type, the only header set here. -/
  contentType : Option String
  body : Option (List UInt8)
  deriving DecidableEq, Repr

def ToolUpstreamRequest.path (request : ToolUpstreamRequest) : String := request.url.path

/-- The pair one query mapping appends, if any. -/
def queryPair (tool : ToolDefinition) (args : Json) (mapping : QueryParamMapping) :
    Except ToolExecutorError (List (String × String)) := do
  refuse (Text.trim mapping.argName).toList.isEmpty
    (.invalidMapping tool.name "query parameter mapping has an empty arg_name")
  refuse (Text.trim mapping.queryName).toList.isEmpty
    (.invalidMapping tool.name ("query parameter mapping for '" ++ mapping.argName ++
      "' has an empty query_name"))
  match optionalArgument args mapping.argName with
  | none =>
    if mapping.required then .error (.missingArgument tool.name mapping.argName "query")
    else .ok []
  | some value => do
    let value ← scalarArgumentToString tool mapping.argName "query" value
    .ok [(mapping.queryName, value)]

def queryPairs (tool : ToolDefinition) (args : Json) :
    List QueryParamMapping → Except ToolExecutorError (List (String × String))
  | [] => .ok []
  | mapping :: rest => do
    let pair ← queryPair tool args mapping
    let pairs ← queryPairs tool args rest
    .ok (pair ++ pairs)

variable [HttpTexts]

/-- The body and its content type. -/
def requestBody (tool : ToolDefinition) (args : Json) :
    Except ToolExecutorError (Option String × Option (List UInt8)) :=
  match tool.upstream.body with
  | none => .ok (none, none)
  | some body =>
    let value := match body.mode with
      | .wholeArgsJson => args
      | .bodyArgsJson => bodyArgumentsWithoutPathAndQuery tool args
    match HttpTexts.toVec value with
    | .error message => .error (.bodySerialize tool.name message)
    | .ok bytes => .ok (some "application/json", some bytes)

def parseMethod (tool : ToolDefinition) : Except ToolExecutorError String :=
  match HttpTexts.parseMethod tool.upstream.method with
  | .error message => .error (.invalidMethod tool.name tool.upstream.method message)
  | .ok method => .ok method

/-- The origin a tool's path is put after: a connection's is filled in later. -/
def requestOrigin (upstreamOrigin : Option String) (tool : ToolDefinition) :
    Except ToolExecutorError String :=
  match tool.target with
  | some (.http _ _) => .ok "http://connection.invalid"
  | _ => okOr upstreamOrigin .missingUpstreamUrl

def parseRequestUrl (tool : ToolDefinition) (origin : String) (path : List Char) :
    Except ToolExecutorError Url :=
  match Url.parse origin path with
  | .error message => .error (.urlBuild tool.name message)
  | .ok url => .ok url

def buildRequest (upstreamOrigin : Option String) (tool : ToolDefinition) (args : Json) :
    Except ToolExecutorError ToolUpstreamRequest := do
  let method ← parseMethod tool
  refuse (decide (Text.len method > Kernel.maxRequestMethodBytes))
    (.invalidMethod tool.name tool.upstream.method
      ("method exceeds " ++ toString Kernel.maxRequestMethodBytes ++ " bytes"))
  let path ← renderPathTemplate tool args
  let origin ← requestOrigin upstreamOrigin tool
  let url ← parseRequestUrl tool origin path
  let pairs ← queryPairs tool args tool.upstream.queryParams
  let url := if tool.upstream.queryParams.isEmpty then url else { url with query := some pairs }
  let (contentType, body) ← requestBody tool args
  refuse (!(Kernel.validateRenderedHttpPath url.path).isOk)
    (.urlBuild tool.name "rendered path is outside the bounds tool policy evaluates")
  .ok { method, url, contentType, body }

end Requests

end GreenGateway.Tools
