import Lariska.Normalization

/-!
# The metadata of runtime packages

What the collectors of Python, Node.js and Java read: the headers of a
`METADATA` file, a `package.json` and the `release` file of a Java runtime, each
of which gives one entry, at the place it is installed, or none.
-/

namespace Lariska

/-! ## Paths -/

/-- An absolute path: the names of its components. -/
abbrev Path := List Bytes

namespace Path

/-- `join`, of the components of a relative path. -/
def join (path : Path) (names : List String) : Path := path ++ names.map Json.bytes

/-- The path as it is written. -/
def written (path : Path) : Bytes :=
  if path = [] then [47] else path.flatMap fun name => 47 :: name

/-- `extension`: what follows the last dot of the name, which is not its first
character. -/
def extension (path : Path) : Option Bytes := do
  let name ← path.getLast?
  let after := (name.reverse.takeWhile (· ≠ 46)).reverse
  if name = [46, 46] ∨ name.length ≤ after.length + 1 then none else some after

/-- The name is text that starts with an `@`. -/
def isScope (path : Path) : Bool :=
  match path.getLast? with
  | some name => (ByteArray.mk name.toArray).validateUTF8 && name.head? == some 64
  | none => false

end Path

/-! ## What the code uses -/

/-- The shapes of an `author`. -/
inductive Author where
  | text (value : String)
  /-- An object, and which of its members are texts. -/
  | object (members : List (String × Option String))
  | other

structure PackageJson where
  name : Option String
  version : Option String
  author : Option Author

/-- The decoders the collectors use. -/
structure Decoders where
  /-- `String::from_utf8_lossy`. -/
  fromUtf8Lossy : Bytes → String
  /-- `serde_json::from_str` at `PackageJson`. -/
  fromStr : String → Option PackageJson

/-- `str::lines`. -/
def lines (content : String) : List (List Char) :=
  let parts := content.toList.splitOn '\n'
  let ended := parts.dropLast.map fun line =>
    if line.getLast? = some '\r' then line.dropLast else line
  ended ++ (parts.getLast?.filter (· ≠ [])).toList

/-- `trim`, of some characters. -/
def trimmed (text : List Char) : String := String.ofList (trim (String.ofList text))

/-- `split_once`. -/
def splitOnce (separator : Char) (text : List Char) : Option (List Char × List Char) :=
  match text.dropWhile (· ≠ separator) with
  | [] => none
  | _ :: after => some (text.takeWhile (· ≠ separator), after)

/-- `strip_prefix`. -/
def stripPrefix (text : List Char) (start : String) : Option (List Char) :=
  text.dropPrefix? start.toList

section Parsers

variable (L : Libraries) (D : Decoders) (canonicalize : Path → Option Path)

/-- `with_instance`. -/
def SoftwareEntry.withInstance (e : SoftwareEntry) (packageId : Option String)
    (scope : InstallationScope) (privateInstance : String) : SoftwareEntry :=
  { e with
    packageId := packageId
    scope := some scope
    installInstanceId :=
      some (hashIdentity L ["lariska-install-instance-v2", privateInstance]) }

/-- `with_path_instance`. -/
def SoftwareEntry.withPathInstance (e : SoftwareEntry) (packageId : Option String)
    (scope : InstallationScope) (path : Path) : SoftwareEntry :=
  e.withInstance L packageId scope
    (D.fromUtf8Lossy ((canonicalize path).getD path).written)

/-- What the three parsers make of a package at its place. -/
def installedAt (name : String) (version publisher architecture : Option String)
    (source : SoftwareSource) (packageId : String) (installDir : Path) : SoftwareEntry :=
  SoftwareEntry.withPathInstance L D canonicalize
    { name := name
      version := version
      publisher := publisher
      architecture := architecture
      source := source
      installLocation := some (D.fromUtf8Lossy installDir.written)
      productIdentity := none
      installationIdentity := none
      packageId := none
      scope := none
      installInstanceId := none }
    (some packageId) .runtime installDir

/-! ### Java -/

/-- `non_empty_release_value`. -/
def nonEmptyReleaseValue (value : List Char) : Option String :=
  let unquoted := ((value.dropWhile (· = '"')).reverse.dropWhile (· = '"')).reverse
  let value := trimmed unquoted
  if value = "" then none else some value

structure JavaRelease where
  version : Option String
  implementor : Option String
  arch : Option String

/-- A line of a `release` file. -/
def JavaRelease.readLine (r : JavaRelease) (line : List Char) : JavaRelease :=
  let line := trim (String.ofList line)
  match stripPrefix line "JAVA_VERSION=" with
  | some value => { r with version := nonEmptyReleaseValue value }
  | none =>
    match stripPrefix line "IMPLEMENTOR=" with
    | some value => { r with implementor := nonEmptyReleaseValue value }
    | none =>
      match stripPrefix line "OS_ARCH=" with
      | some value => { r with arch := nonEmptyReleaseValue value }
      | none => r

def parseJavaRelease (content : String) (installDir : Path) : Option SoftwareEntry := do
  let release := (lines content).foldl JavaRelease.readLine ⟨none, none, none⟩
  let version ← release.version
  let name := release.implementor.elim "Java SE Runtime Environment" (· ++ " OpenJDK")
  pure (installedAt L D canonicalize name (some version) release.implementor release.arch .java
    "java-runtime" installDir)

/-! ### Python -/

structure PythonHeaders where
  name : Option String
  version : Option String
  author : Option String

/-- `eq_ignore_ascii_case`. -/
def eqIgnoreAsciiCase (a b : String) : Bool := toAsciiLowercase a == toAsciiLowercase b

/-- A header of a `METADATA` file. -/
def PythonHeaders.readLine (h : PythonHeaders) (line : List Char) : PythonHeaders :=
  match line.dropWhile (· ≠ ':') with
  | [] => h
  | _ :: rawValue =>
    let key := String.ofList (line.takeWhile (· ≠ ':'))
    let value := trimmed rawValue
    if eqIgnoreAsciiCase key "name" then
      if value = "" then h else { h with name := some value }
    else if eqIgnoreAsciiCase key "version" then
      if value = "" then h else { h with version := some value }
    else if eqIgnoreAsciiCase key "author" ∧ value ≠ "" ∧ ¬eqIgnoreAsciiCase value "unknown" then
      { h with author := some value }
    else h

def parsePythonMetadata (content : String) (installDir : Path) : Option SoftwareEntry := do
  -- a blank line ends the headers
  let headers := (lines content).takeWhile fun line => trim (String.ofList line) ≠ []
  let parsed := headers.foldl PythonHeaders.readLine ⟨none, none, none⟩
  let name ← parsed.name
  if name = "" then none
  else pure (installedAt L D canonicalize name parsed.version parsed.author none .pip name
    installDir)

/-! ### Node.js -/

/-- `package_author_name`. -/
def packageAuthorName (author : Author) : Option String := do
  let raw ← match author with
    | .text value => some value
    | .object members => (members.lookup "name").join
    | .other => none
  let value := trimmed raw.toList
  if value = "" then none else some value

def parsePackageJson (content : String) (installDir : Path) : Option SoftwareEntry := do
  let parsed ← D.fromStr content
  let name ← parsed.name.map fun name => trimmed name.toList
  if name = "" then none
  else
    let version := (parsed.version.map fun v => trimmed v.toList).filter (· ≠ "")
    let publisher := parsed.author.bind packageAuthorName
    pure (installedAt L D canonicalize name version publisher none .npm name installDir)

end Parsers

end Lariska
