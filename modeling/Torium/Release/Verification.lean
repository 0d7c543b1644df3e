import Mathlib.Data.Finset.Card
import Torium.Evm.Abi
import Torium.Generator.Input

/-!
# Verification of a release

A release directory holds the listed artifacts, their checksums, a bill of materials and a
provenance statement. The verification reads four documents and compares them: lines that do not
have the expected form are passed over, the subjects of the provenance are only counted, and of
several entries for one module the last one counts. Hashing, decoding, parsing and the signature
check are parameters.

What the comparisons do not see, the signatures do: if the key of a release has signed nothing but
one list of checksums and the statement that was generated from it, then the verified documents
are these, and no change of a file, of a subject or of a hash goes unnoticed.
-/

namespace Torium.Release

open Evm Generator

/-- A path from the root of the file system, without dots. -/
abbrev Path : Type := List Text

/-! ## Documents -/

structure ExternalRef where
  referenceType : Text
  referenceLocator : Text
  deriving DecidableEq

structure Package where
  externalRefs : Option (List ExternalRef)
  /-- The values of the checksums, nothing for one that is not a text. -/
  checksums : Option (List (Option Text))
  deriving DecidableEq

structure Sbom where
  spdxVersion : Text
  packages : List Package
  deriving DecidableEq

structure Subject where
  name : Text
  sha256 : Text
  deriving DecidableEq

structure Dependency where
  uri : Text
  sha256 : Option Text
  gitCommit : Option Text
  deriving DecidableEq

structure Provenance where
  type : Text
  predicateType : Text
  /-- Nothing for an entry that is not a name with a digest. -/
  subject : List (Option Subject)
  resolvedDependencies : List Dependency
  deriving DecidableEq

/-- The functions of the platform. A text is parsed as a document if the fields that the
verification goes through have their types; on other texts it fails in any case. -/
class Platform where
  sha256 : Bytes → Text
  utf8 : Bytes → Text
  base64Hex : Text → Text
  parseSbom : Text → Option Sbom
  parseProvenance : Text → Option Provenance
  /-- The signature check: payload, public key and the text of the signature. -/
  edVerify : Bytes → Bytes → Text → Bool

/-- What the verification reads: the files, the directory of the release, the root of the
repository and the expected commit, empty where none is given. -/
structure Input where
  file : Path → Option Bytes
  releaseDir : Path
  root : Path
  expectedCommit : Text

/-! ## Patterns -/

/-- White space, as the patterns of the language have it. -/
def isSpace (c : Char) : Bool :=
  decide (c.toNat ∈ [9, 10, 11, 12, 13, 32, 160, 5760, 8232, 8233, 8239, 8287, 12288, 65279]) ||
    (decide (8192 ≤ c.toNat) && decide (c.toNat ≤ 8202))

def isWord (text : Text) : Bool := !text.isEmpty && text.all fun c => !isSpace c

def isLowerHex (c : Char) : Bool := Decimal.isDigit c || ('a' ≤ c && c ≤ 'f')

/-- The pattern `^([0-9a-f]{64})  (\S+)$`: the digest and the name. -/
def matchSum (line : Text) : Option (Text × Text) :=
  let digest := line.take 64
  match line.drop 64 with
  | ' ' :: ' ' :: name =>
    if digest.length = 64 ∧ digest.all isLowerHex ∧ isWord name then some (digest, name) else none
  | _ => none

/-- The pattern `^(\S+) (\S+) h1:(\S+)$`: the module, its version and the hash. -/
def matchModule (line : Text) : Option (Text × Text × Text) :=
  match line.splitOn ' ' with
  | [path, version, 'h' :: '1' :: ':' :: hash] =>
    if isWord path ∧ isWord version ∧ isWord hash then some (path, version, hash) else none
  | _ => none

def lines (text : Text) : List Text := text.splitOn '\n'

/-- The path that a name stands for in a directory. -/
def join (directory : Path) (name : Text) : Path :=
  (name.splitOn '/').foldl (fun path segment =>
    if segment = [] ∨ segment = ['.'] then path
    else if segment = ['.', '.'] then path.dropLast
    else path ++ [segment]) directory

/-! ## Maps -/

section Maps

variable {α : Type}

/-- The value of a key in a map that was filled with the pairs. -/
def valueOf (pairs : List (Text × α)) (key : Text) : Option α := pairs.reverse.lookup key

/-- The number of its keys. -/
def sizeOfMap (pairs : List (Text × α)) : Nat := (pairs.map Prod.fst).toFinset.card

variable {pairs others : List (Text × α)} {key : Text} {value : α}

theorem mem_of_valueOf (found : valueOf pairs key = some value) : (key, value) ∈ pairs := by
  rw [valueOf, List.lookup_eq_some_iff] at found
  obtain ⟨before, after, split, -⟩ := found
  rw [← List.mem_reverse, split]
  simp

theorem valueOf_of_key (known : key ∈ pairs.map Prod.fst) :
    ∃ value, valueOf pairs key = some value := by
  rw [← Option.ne_none_iff_exists']
  intro unknown
  rw [valueOf, List.lookup_eq_none_iff] at unknown
  obtain ⟨pair, member, rfl⟩ := List.mem_map.mp known
  simpa using unknown pair (List.mem_reverse.mpr member)

theorem key_mem (member : (key, value) ∈ pairs) : key ∈ pairs.map Prod.fst :=
  List.mem_map_of_mem member

/-- A map that has all keys of another one and as many has no further keys. -/
theorem keys_of_size (covered : ∀ key ∈ others.map Prod.fst, key ∈ pairs.map Prod.fst)
    (same : sizeOfMap pairs = sizeOfMap others) :
    ∀ key, key ∈ pairs.map Prod.fst ↔ key ∈ others.map Prod.fst := by
  intro key
  have subset : (others.map Prod.fst).toFinset ⊆ (pairs.map Prod.fst).toFinset := fun key member =>
    List.mem_toFinset.mpr (covered key (List.mem_toFinset.mp member))
  have equal := Finset.eq_of_subset_of_card_le subset same.le
  rw [← List.mem_toFinset, ← equal, List.mem_toFinset]

theorem mem_iff_valueOf (distinct : (pairs.map Prod.fst).Nodup) :
    (key, value) ∈ pairs ↔ valueOf pairs key = some value := by
  refine ⟨fun member => ?_, mem_of_valueOf⟩
  obtain ⟨other, found⟩ := valueOf_of_key (key_mem member)
  have same := List.inj_on_of_nodup_map distinct (mem_of_valueOf found) member rfl
  rw [found, (Prod.mk.inj same).2]

/-- A map that was filled with each key once gives back the pairs. -/
theorem map_valueOf (distinct : (pairs.map Prod.fst).Nodup) :
    pairs.map (Prod.map id some) = (pairs.map Prod.fst).map fun key =>
      (key, valueOf pairs key) := by
  rw [List.map_map]
  refine List.map_congr_left fun pair member => ?_
  exact Prod.ext rfl ((mem_iff_valueOf distinct).mp member).symm

/-- Maps that were filled in the same order, with each key once. -/
theorem eq_of_values (distinct : (pairs.map Prod.fst).Nodup)
    (keys : pairs.map Prod.fst = others.map Prod.fst)
    (values : ∀ key, valueOf pairs key = valueOf others key) : pairs = others := by
  refine (Function.injective_id.prodMap (Option.some_injective α)).list_map ?_
  rw [map_valueOf distinct, map_valueOf (keys ▸ distinct), keys, funext values]

end Maps

/-! ## The verification -/

section Verification

variable [Platform] {input : Input}

def missing : String := "ENOENT: no such file or directory"

def unequal : String := "Expected values to be strictly equal"

def readFile (input : Input) (path : Path) : Except String Bytes :=
  orRevert missing (input.file path)

/-- The file that a name of the checksums stands for. A name that ends in a slash only stands for a
directory. -/
def listedFile (input : Input) (name : Text) : Option Bytes :=
  if name.getLast? = some '/' then none else input.file (join input.releaseDir name)

/-- The subjects that the provenance generator derives from the checksums. -/
def generateSubjects (sumsText : Text) : List Subject :=
  (lines sumsText).filterMap fun line => (matchSum line).map fun (digest, name) => ⟨name, digest⟩

/-- One line of the checksums. A line of another form is passed over. -/
def verifySum (input : Input) (artifactCount : Nat) (line : Text) : Except String Nat :=
  match matchSum line with
  | none => pure artifactCount
  | some (digest, name) => do
      let buffer ← orRevert missing (listedFile input name)
      throwIf (Platform.sha256 buffer ≠ digest) ("checksum mismatch for " ++ String.ofList name)
      pure (artifactCount + 1)

/-- The modules of `go.sum`, line by line, with their hashes. -/
def goModules (goSum : Text) : List (Text × Option Text) :=
  (lines goSum).filterMap fun line => match matchModule line with
    | none => none
    | some (path, version, hash) =>
      if "/go.mod".toList.isSuffixOf version then none
      else some (path ++ '@' :: version, some (Platform.base64Hex hash))

def purlStart : Text := "pkg:golang/".toList

/-- The module of a package and its first checksum, if the package is a Go module. -/
def sbomModule (package : Package) : Option (Text × Option Text) := do
  let refs ← package.externalRefs
  let ref ← refs.find? fun ref => ref.referenceType == "purl".toList
  if purlStart.isPrefixOf ref.referenceLocator then
    some (ref.referenceLocator.drop purlStart.length, (package.checksums.bind List.head?).join)
  else none

def sbomModules (sbom : Sbom) : List (Text × Option Text) := sbom.packages.filterMap sbomModule

/-- The comparison for one module of `go.sum`. -/
def verifyModule (actual expected : List (Text × Option Text)) (key : Text) : Except String Unit :=
  throwIf ((valueOf actual key).join ≠ (valueOf expected key).join)
    ("SBOM hash diverges for " ++ String.ofList key)

def verifySbom (input : Input) : Except String Unit := do
  let sbomText ← readFile input (input.releaseDir ++ ["sbom.spdx.json".toList])
  let sbom ← orRevert "SyntaxError" (Platform.parseSbom (Platform.utf8 sbomText))
  throwIf (sbom.spdxVersion ≠ "SPDX-2.3".toList) unequal
  let goSum ← readFile input (join input.root "chain/app/go.sum".toList)
  let expected := goModules (Platform.utf8 goSum)
  let actual := sbomModules sbom
  throwIf (sizeOfMap actual ≠ sizeOfMap expected) "SBOM module count diverges from go.sum"
  (expected.map Prod.fst).eraseDups.forM (verifyModule actual expected)

def pinnedFiles : List Text :=
  ["chain/toolchain.json".toList, "chain/app/go.sum".toList, "chain/app/Dockerfile".toList]

/-- The dependencies of a provenance by their keys. -/
def dependencies (provenance : Provenance) : List (Text × Dependency) :=
  provenance.resolvedDependencies.map fun dependency =>
    (if "git+".toList.isPrefixOf dependency.uri then "git".toList else dependency.uri, dependency)

def verifyPinned (input : Input) (provenance : Provenance) (pinned : Text) :
    Except String Unit := do
  let content ← readFile input (join input.root pinned)
  throwIf ((valueOf (dependencies provenance) pinned).bind (·.sha256) ≠
      some (Platform.sha256 content))
    ("provenance material diverges for " ++ String.ofList pinned)

def verifyProvenance (input : Input) (artifactCount : Nat) : Except String Unit := do
  let text ← readFile input (input.releaseDir ++ ["provenance-v1.json".toList])
  let provenance ← orRevert "SyntaxError" (Platform.parseProvenance (Platform.utf8 text))
  throwIf (provenance.type ≠ "https://in-toto.io/Statement/v1".toList) unequal
  throwIf (provenance.predicateType ≠ "https://slsa.dev/provenance/v1".toList) unequal
  throwIf (provenance.subject.length ≠ artifactCount) "provenance subject count diverges"
  pinnedFiles.forM (verifyPinned input provenance)
  throwIf (input.expectedCommit ≠ [] ∧
      (valueOf (dependencies provenance) "git".toList).bind (·.gitCommit) ≠
        some input.expectedCommit)
    "provenance commit diverges"

def verifySignature (input : Input) (publicKey : Bytes) (artifact : Text) : Except String Unit := do
  let payload ← readFile input (input.releaseDir ++ [artifact])
  let signature ← readFile input (input.releaseDir ++ [artifact ++ ".sig".toList])
  throwIf (Platform.edVerify payload publicKey (Platform.utf8 signature) = false)
    ("ed25519 signature verification failed for " ++ String.ofList artifact)

def verifySignatures (input : Input) : Except String Unit :=
  match input.file (input.releaseDir ++ ["signing-public-key.pem".toList]) with
  | none => pure ()
  | some publicKey =>
    ["SHA256SUMS".toList, "provenance-v1.json".toList].forM (verifySignature input publicKey)

def verifyRelease (input : Input) : Except String Nat := do
  let sumsBytes ← readFile input (input.releaseDir ++ ["SHA256SUMS".toList])
  let artifactCount ← (lines (Platform.utf8 sumsBytes)).foldlM (verifySum input) 0
  throwIf (artifactCount = 0) "SHA256SUMS lists no artifacts"
  verifySbom input
  verifyProvenance input artifactCount
  verifySignatures input
  pure artifactCount

/-! ## What a verified release satisfies -/

omit [Platform] in
theorem forM_eq_ok {α : Type} {check : α → Except String Unit} {items : List α}
    (passed : items.forM check = .ok ()) : ∀ item ∈ items, check item = .ok () := by
  induction items with
  | nil => simp
  | cons item items ih =>
    change (check item >>= fun _ => items.forM check) = _ at passed
    rw [bind_eq_ok] at passed
    obtain ⟨⟨⟩, first, rest⟩ := passed
    exact List.forall_mem_cons.mpr ⟨first, ih rest⟩

/-- The file of a name exists and has the digest. -/
def HasDigest (input : Input) (name digest : Text) : Prop :=
  ∃ bytes, listedFile input name = some bytes ∧ Platform.sha256 bytes = digest

theorem hasDigest_of_verifySum {count after : Nat} {line digest name : Text}
    (passed : verifySum input count line = .ok after)
    (listed : matchSum line = some (digest, name)) :
    HasDigest input name digest := by
  simp only [verifySum, listed, throwIf, bind_eq_ok, orRevert_eq_ok, revertIf_eq_ok,
    not_not] at passed
  obtain ⟨bytes, found, ⟨⟩, digest, -⟩ := passed
  exact ⟨bytes, found, digest⟩

theorem hasDigest_of_foldlM {items : List Text} {count after : Nat}
    (passed : items.foldlM (verifySum input) count = .ok after) {line digest name : Text}
    (member : line ∈ items) (listed : matchSum line = some (digest, name)) :
    HasDigest input name digest := by
  induction items generalizing count with
  | nil => cases member
  | cons first items ih =>
    rw [List.foldlM_cons, bind_eq_ok] at passed
    obtain ⟨next, head, rest⟩ := passed
    rcases List.mem_cons.mp member with rfl | later
    · exact hasDigest_of_verifySum head listed
    · exact ih rest later

omit [Platform] in
theorem mem_generateSubjects {sums line digest name : Text} (member : line ∈ lines sums)
    (listed : matchSum line = some (digest, name)) : ⟨name, digest⟩ ∈ generateSubjects sums :=
  List.mem_filterMap.mpr ⟨line, member, by rw [listed]; rfl⟩

/-- Nothing is counted in a text without a line of the pattern. -/
theorem foldlM_of_noSubjects {sums : Text} (empty : generateSubjects sums = []) :
    (lines sums).foldlM (verifySum input) 0 = .ok 0 := by
  have passed : ∀ line ∈ lines sums, verifySum input 0 line = .ok 0 := by
    intro line member
    rw [verifySum]
    cases listed : matchSum line with
    | none => rfl
    | some found =>
      have subject := mem_generateSubjects member listed
      rw [empty] at subject
      cases subject
  generalize lines sums = items at passed
  induction items with
  | nil => rfl
  | cons line items ih =>
    obtain ⟨here, later⟩ := List.forall_mem_cons.mp passed
    rw [List.foldlM_cons, here]
    exact ih later

/-- With a key in the directory, both documents carry a signature that the key verifies. -/
theorem edVerify_of_verifySignatures {publicKey : Bytes}
    (present : input.file (input.releaseDir ++ ["signing-public-key.pem".toList]) = some publicKey)
    (verified : verifySignatures input = .ok ()) {artifact : Text}
    (member : artifact ∈ ["SHA256SUMS".toList, "provenance-v1.json".toList]) {payload : Bytes}
    (read : input.file (input.releaseDir ++ [artifact]) = some payload) :
    ∃ signature, Platform.edVerify payload publicKey signature = true := by
  simp only [verifySignatures, present] at verified
  have checked := forM_eq_ok verified artifact member
  simp only [verifySignature, readFile, read, throwIf, bind_eq_ok, orRevert_eq_ok,
    revertIf_eq_ok] at checked
  obtain ⟨_, ⟨⟩, signature, -, valid⟩ := checked
  exact ⟨_, eq_true_of_ne_false valid⟩

/-- The documents that are compared. -/
structure Documents where
  sums : Text
  goSum : Text
  sbom : Sbom
  provenance : Provenance
  deriving DecidableEq

def documents (input : Input) : Option Documents := do
  let sums ← input.file (input.releaseDir ++ ["SHA256SUMS".toList])
  let goSum ← input.file (join input.root "chain/app/go.sum".toList)
  let sbom ← input.file (input.releaseDir ++ ["sbom.spdx.json".toList])
  let provenance ← input.file (input.releaseDir ++ ["provenance-v1.json".toList])
  return {
    sums := Platform.utf8 sums
    goSum := Platform.utf8 goSum
    sbom := ← Platform.parseSbom (Platform.utf8 sbom)
    provenance := ← Platform.parseProvenance (Platform.utf8 provenance) }

/-- What the verification establishes. -/
structure Checked (input : Input) (found : Documents) : Prop where
  listed : generateSubjects found.sums ≠ []
  digests : ∀ subject ∈ generateSubjects found.sums, HasDigest input subject.name subject.sha256
  keys : ∀ key, key ∈ (sbomModules found.sbom).map Prod.fst ↔
    key ∈ (goModules found.goSum).map Prod.fst
  values : ∀ key ∈ (goModules found.goSum).map Prod.fst,
    valueOf (sbomModules found.sbom) key = valueOf (goModules found.goSum) key
  signatures : ∀ publicKey,
    input.file (input.releaseDir ++ ["signing-public-key.pem".toList]) = some publicKey →
      ∃ sums statement, found.sums = Platform.utf8 sums ∧
        Platform.parseProvenance (Platform.utf8 statement) = some found.provenance ∧
        (∃ signature, Platform.edVerify sums publicKey signature = true) ∧
        ∃ signature, Platform.edVerify statement publicKey signature = true

theorem goModules_hash {goSum : Text} {pair : Text × Option Text}
    (member : pair ∈ goModules goSum) :
    ∃ hash, pair.2 = some hash := by
  obtain ⟨line, -, kept⟩ := List.mem_filterMap.mp member
  split at kept
  · cases kept
  · split at kept
    · cases kept
    · cases kept
      exact ⟨_, rfl⟩

/-- The comparison of one module, as an equality of the values of both maps. -/
theorem valueOf_of_verifyModule {actual : List (Text × Option Text)} {goSum key : Text}
    (known : key ∈ (goModules goSum).map Prod.fst)
    (passed : verifyModule actual (goModules goSum) key = .ok ()) :
    valueOf actual key = valueOf (goModules goSum) key := by
  obtain ⟨value, current⟩ := valueOf_of_key known
  obtain ⟨hash, rfl⟩ : ∃ hash, value = some hash := goModules_hash (mem_of_valueOf current)
  rw [verifyModule, throwIf, revertIf_eq_ok, not_not, current, Option.join_some,
    Option.join_eq_some_iff] at passed
  rw [passed, current]

theorem modules_of_verifySbom (verified : verifySbom input = .ok ()) :
    ∃ sbomText sbom goSum,
      input.file (input.releaseDir ++ ["sbom.spdx.json".toList]) = some sbomText ∧
      Platform.parseSbom (Platform.utf8 sbomText) = some sbom ∧
      input.file (join input.root "chain/app/go.sum".toList) = some goSum ∧
      sizeOfMap (sbomModules sbom) = sizeOfMap (goModules (Platform.utf8 goSum)) ∧
      ∀ key ∈ (goModules (Platform.utf8 goSum)).map Prod.fst,
        valueOf (sbomModules sbom) key = valueOf (goModules (Platform.utf8 goSum)) key := by
  simp only [verifySbom, readFile, throwIf, bind_eq_ok, orRevert_eq_ok, revertIf_eq_ok,
    not_not] at verified
  obtain ⟨sbomText, read, sbom, parsed, ⟨⟩, -, goSum, readSum, ⟨⟩, size, loop⟩ := verified
  refine ⟨sbomText, sbom, goSum, read, parsed, readSum, size, ?_⟩
  intro key known
  exact valueOf_of_verifyModule known (forM_eq_ok loop key (List.mem_eraseDups.mpr known))

theorem checked_of_verifyRelease {count : Nat} (verified : verifyRelease input = .ok count) :
    ∃ found, documents input = some found ∧ Checked input found := by
  simp only [verifyRelease, readFile, throwIf, bind_eq_ok, orRevert_eq_ok, revertIf_eq_ok]
    at verified
  obtain ⟨sums, readSums, artifacts, loop, ⟨⟩, some_, ⟨⟩, sbomPassed, ⟨⟩, provenancePassed, ⟨⟩,
    signaturesPassed, -⟩ := verified
  obtain ⟨sbomText, sbom, goSum, readSbom, parsedSbom, readGo, size, values⟩ :=
    modules_of_verifySbom sbomPassed
  simp only [verifyProvenance, readFile, bind_eq_ok, orRevert_eq_ok] at provenancePassed
  obtain ⟨statement, readStatement, provenance, parsed, -⟩ := provenancePassed
  refine ⟨⟨Platform.utf8 sums, Platform.utf8 goSum, sbom, provenance⟩, ?_, ?_, ?_, ?_, values, ?_⟩
  · simp only [documents, readSums, readGo, readSbom, readStatement, parsedSbom, parsed,
      Option.bind_eq_bind, Option.bind_some]
    rfl
  · intro empty
    rw [foldlM_of_noSubjects empty] at loop
    exact some_ (Except.ok.inj loop).symm
  · intro subject listed
    obtain ⟨line, member, matched⟩ := List.mem_filterMap.mp listed
    obtain ⟨⟨digest, name⟩, pattern, rfl⟩ := Option.map_eq_some_iff.mp matched
    exact hasDigest_of_foldlM loop member pattern
  · refine keys_of_size ?_ size
    intro key known
    obtain ⟨value, current⟩ := valueOf_of_key known
    exact key_mem (mem_of_valueOf ((values key known).trans current))
  · intro publicKey present
    refine ⟨sums, statement, rfl, parsed, ?_, ?_⟩
    · exact edVerify_of_verifySignatures present signaturesPassed (by simp) readSums
    · exact edVerify_of_verifySignatures present signaturesPassed (by simp) readStatement

/-! ## Coverage -/

def isBlank (line : Text) : Bool := line.all isSpace

/-- The name stands for a path below the directory of the release. -/
def Inside (input : Input) (name : Text) : Prop :=
  ∃ rest, rest ≠ [] ∧ join input.releaseDir name = input.releaseDir ++ rest

/-- Every line names a file of the directory and its digest. -/
def LinesCovered (input : Input) (found : Documents) : Prop :=
  ∀ line ∈ lines found.sums, isBlank line = false → ∃ digest name,
    matchSum line = some (digest, name) ∧ Inside input name ∧ HasDigest input name digest

/-- The subjects are the listed pairs. -/
def SubjectsCovered (found : Documents) : Prop :=
  ∀ entry, entry ∈ found.provenance.subject ↔ entry ∈ (generateSubjects found.sums).map some

/-- The Go modules of the bill of materials with their hashes are those of `go.sum`. -/
def ModulesCovered (found : Documents) : Prop :=
  ∀ pair, pair ∈ sbomModules found.sbom ↔ pair ∈ goModules found.goSum

/-- What a release is like that was built and signed, and what its key is used for. It has signed
one list of checksums, of which every line names a file of the directory, and the statement that
was generated from it; neither is read as the other. -/
structure Signed (input : Input) (sums statement : Bytes) : Prop where
  key : ∃ publicKey,
    input.file (input.releaseDir ++ ["signing-public-key.pem".toList]) = some publicKey ∧
      ∀ payload signature, Platform.edVerify payload publicKey signature = true →
        payload = sums ∨ payload = statement
  lines : ∀ line ∈ lines (Platform.utf8 sums), isBlank line = false → ∃ digest name,
    matchSum line = some (digest, name) ∧ Inside input name
  generated : ∃ provenance, Platform.parseProvenance (Platform.utf8 statement) = some provenance ∧
    provenance.subject = (generateSubjects (Platform.utf8 sums)).map some
  noList : generateSubjects (Platform.utf8 statement) = []
  noStatement : Platform.parseProvenance (Platform.utf8 sums) = none

/-- Every module has one entry in each document. -/
def Distinct (found : Documents) : Prop :=
  ((sbomModules found.sbom).map Prod.fst).Nodup ∧ ((goModules found.goSum).map Prod.fst).Nodup

/-- What differs between a release and one that was derived from it: the content of a listed file,
a subject of the statement, or the hash of a module in one of the two documents. -/
inductive Changed (input : Input) (found : Documents) (input' : Input) (found' : Documents) : Prop
  | file {name digest : Text} {bytes bytes' : Bytes}
    (listed : ⟨name, digest⟩ ∈ generateSubjects found.sums)
      (before : listedFile input name = some bytes) (after : listedFile input' name = some bytes')
      (differs : Platform.sha256 bytes ≠ Platform.sha256 bytes')
  | subject (differs : found.provenance.subject ≠ found'.provenance.subject)
  | sbomHash (goSum : found.goSum = found'.goSum)
      (keys : (sbomModules found.sbom).map Prod.fst = (sbomModules found'.sbom).map Prod.fst)
      (differs : sbomModules found.sbom ≠ sbomModules found'.sbom)
  | goSumHash (sbom : found.sbom = found'.sbom)
      (keys : (goModules found.goSum).map Prod.fst = (goModules found'.goSum).map Prod.fst)
      (differs : goModules found.goSum ≠ goModules found'.goSum)

section Covered

variable {input' : Input} {found found' : Documents} {sums statement : Bytes} {count : Nat}

/-- The documents that are verified are those that were signed. -/
theorem Signed.documents (signed : Signed input sums statement) (checked : Checked input found) :
    found.sums = Platform.utf8 sums ∧
      Platform.parseProvenance (Platform.utf8 statement) = some found.provenance := by
  obtain ⟨publicKey, present, only⟩ := signed.key
  obtain ⟨payload, payload', read, parsed, ⟨_, valid⟩, _, valid'⟩ :=
    checked.signatures publicKey present
  have first : payload = sums := by
    refine (only _ _ valid).resolve_right ?_
    rintro rfl
    exact checked.listed (read ▸ signed.noList)
  have second : payload' = statement := by
    refine (only _ _ valid').resolve_left ?_
    rintro rfl
    cases signed.noStatement.symm.trans parsed
  exact ⟨first ▸ read, second ▸ parsed⟩

theorem Signed.congr (signed : Signed input sums statement)
    (directory : input'.releaseDir = input.releaseDir)
    (key : input'.file (input.releaseDir ++ ["signing-public-key.pem".toList]) =
      input.file (input.releaseDir ++ ["signing-public-key.pem".toList])) :
    Signed input' sums statement := by
  refine ⟨?_, ?_, signed.generated, signed.noList, signed.noStatement⟩
  · rw [directory, key]
    exact signed.key
  · simpa only [Inside, directory] using signed.lines

/-- Both documents give a module the same hash. -/
theorem Checked.value_eq (checked : Checked input found) (key : Text) :
    valueOf (sbomModules found.sbom) key = valueOf (goModules found.goSum) key := by
  by_cases known : key ∈ (goModules found.goSum).map Prod.fst
  · exact checked.values key known
  · have unknown {pairs : List (Text × Option Text)} (absent : key ∉ pairs.map Prod.fst) :
        valueOf pairs key = none := by
      rw [Option.eq_none_iff_forall_ne_some]
      exact fun value found => absent (key_mem (mem_of_valueOf found))
    rw [unknown known, unknown (mt (checked.keys key).mp known)]

theorem covered_of_signed (signed : Signed input sums statement) (distinct : Distinct found)
    (checked : Checked input found) :
    LinesCovered input found ∧ SubjectsCovered found ∧ ModulesCovered found := by
  obtain ⟨read, parsed⟩ := signed.documents checked
  refine ⟨fun line member text => ?_, fun entry => ?_, fun ⟨key, value⟩ => ?_⟩
  · obtain ⟨digest, name, listed, inside⟩ := signed.lines line (read ▸ member) text
    exact ⟨digest, name, listed, inside, checked.digests _ (mem_generateSubjects member listed)⟩
  · obtain ⟨provenance, parsed', subjects⟩ := signed.generated
    cases parsed'.symm.trans parsed
    rw [subjects, read]
  · rw [mem_iff_valueOf distinct.1, mem_iff_valueOf distinct.2, checked.value_eq]

/-- A release in which something was changed is not verified. -/
theorem Changed.refused (changed : Changed input found input' found')
    (signed : Signed input sums statement) (signed' : Signed input' sums statement)
    (distinct : Distinct found) (checked : Checked input found)
    (checked' : Checked input' found') : False := by
  obtain ⟨read, parsed⟩ := signed.documents checked
  obtain ⟨read', parsed'⟩ := signed'.documents checked'
  cases changed with
  | file listed before after differs =>
    obtain ⟨_, first, digest⟩ := checked.digests _ listed
    obtain ⟨_, second, digest'⟩ := checked'.digests _ (read'.trans read.symm ▸ listed)
    cases before.symm.trans first
    cases after.symm.trans second
    exact differs (digest.trans digest'.symm)
  | subject differs =>
    have same := Option.some.inj (parsed.symm.trans parsed')
    exact differs (congrArg Provenance.subject same)
  | sbomHash goSum keys differs =>
    refine differs (eq_of_values distinct.1 keys fun key => ?_)
    rw [checked.value_eq, checked'.value_eq, goSum]
  | goSumHash sbom keys differs =>
    refine differs (eq_of_values distinct.2 keys fun key => ?_)
    rw [← checked.value_eq, ← checked'.value_eq, sbom]

end Covered

end Verification

namespace Demo

def artifact : Text := "torium".toList

def text (bytes : Bytes) : Text := bytes.map fun byte => Char.ofNat byte.toNat

def content (text : Text) : Bytes := text.map fun c => BitVec.ofNat 8 c.toNat

def goSum : Text := "core v1 h1:qg==".toList

def emptyDigest : Text :=
  Nat.toDigits 16 0xe3b0c44298fc1c149afbf4c8996fb92427ae41e4649b934ca495991b7852b855

def goSumDigest : Text :=
  Nat.toDigits 16 0x518a1b71447e717dc1a8ede8007a88e0e7bf7117ae3261966607ff38a4c691fe

def artifactDigest : Text :=
  Nat.toDigits 16 0x4bf5122f344554c53bde2ebb8cd2b7e3d1600ad631c385a5d7cce23c7785459a

def otherDigest : Text :=
  Nat.toDigits 16 0xdbc1b4c900ffe48d575b5da5c638040125f65db0fe3e24494b76ea986457d986

/-- SHA-256 on the files below, and on another artifact. -/
def sha256 (bytes : Bytes) : Text :=
  ([([], emptyDigest), (content goSum, goSumDigest), ([1], artifactDigest),
    ([2], otherDigest)].lookup bytes).getD []

def sbom : Sbom where
  spdxVersion := "SPDX-2.3".toList
  packages := [{
    externalRefs := some [⟨"purl".toList, "pkg:golang/core@v1".toList⟩]
    checksums := some [some "aa".toList] }]

/-- The statement whose one subject has the given digest. -/
def provenance (subjectDigest : Text) : Provenance where
  type := "https://in-toto.io/Statement/v1".toList
  predicateType := "https://slsa.dev/provenance/v1".toList
  subject := [some ⟨artifact, subjectDigest⟩]
  resolvedDependencies := (pinnedFiles.zip [emptyDigest, goSumDigest, emptyDigest]).map
    fun (uri, digest) => ⟨uri, some digest, none⟩

def sums : Text := artifactDigest ++ "  torium\n".toList

def publicKey : Text :=
  ("-----BEGIN PUBLIC KEY-----\nMCowBQYDK2VwAyEAH4xQfT91k/jC2RpCYr5tfbAszW9oipUS9Piin1o5UE0=\n" ++
    "-----END PUBLIC KEY-----\n").toList

def sumsSignature : Text :=
  "mSrRkZo+BGrhXMo9QCmJtMwzE4ZP47A2BSjNKBCGSrQRbncpbvZGPOXA6iPDGKKWLSXh4jlKtvjtXwXKF15LDg==".toList

def statementSignature : Text :=
  "Mnpi7AvUDDRB5I6hCfWySXLFkM67I91bmsrimSXY5HA+4FMHNBRNf3gfpdKqec96Pfbn0QtwAP3VIKrMKrbuCA==".toList

/-- The functions of the platform on the files below. A bill of materials without a text stands for
the one above, and a digest for the statement that it is the subject of. -/
@[reducible] def platform : Platform where
  sha256 := sha256
  utf8 := text
  base64Hex hash := if hash = "qg==".toList then "aa".toList else []
  parseSbom text := if text = [] then some sbom else none
  parseProvenance text :=
    if text ∈ [artifactDigest, otherDigest] then some (provenance text) else none
  edVerify payload key signature :=
    key = content publicKey ∧ (payload, signature) ∈
      [(content sums, sumsSignature), (content artifactDigest, statementSignature)]

/-- A release of one artifact, whose subject has the given digest, and the further files. -/
def release (subjectDigest : Text) (more : List (Path × Bytes)) : Input where
  file := fun path => ([
    (["out".toList, artifact], [1]),
    (["out".toList, "SHA256SUMS".toList], content sums),
    (["out".toList, "sbom.spdx.json".toList], []),
    (["out".toList, "provenance-v1.json".toList], content subjectDigest),
    (["chain".toList, "toolchain.json".toList], []),
    (["chain".toList, "app".toList, "go.sum".toList], content goSum),
    (["chain".toList, "app".toList, "Dockerfile".toList], [])] ++ more).lookup path
  releaseDir := ["out".toList]
  root := []
  expectedCommit := []

/-- The files of the signatures. -/
def signing : List (Path × Bytes) :=
  [(["out".toList, "signing-public-key.pem".toList], content publicKey),
    (["out".toList, "SHA256SUMS.sig".toList], content sumsSignature),
    (["out".toList, "provenance-v1.json.sig".toList], content statementSignature)]

def documents (subjectDigest : Text) : Documents where
  sums := sums
  goSum := goSum
  sbom := sbom
  provenance := provenance subjectDigest

theorem signed : @Signed platform (release artifactDigest signing) (content sums)
    (content artifactDigest) := by
  let := platform
  have split : lines (text (content sums)) = [artifactDigest ++ "  torium".toList, []] := by
    decide +kernel
  refine ⟨⟨content publicKey, by decide +kernel, ?_⟩, ?_,
    ⟨provenance artifactDigest, by decide +kernel, by decide +kernel⟩, by decide +kernel,
    by decide +kernel⟩
  · intro payload signature valid
    obtain ⟨-, listed⟩ := of_decide_eq_true valid
    obtain same | last := List.mem_cons.mp listed
    · exact .inl (Prod.mk.inj same).1
    · exact .inr (Prod.mk.inj (List.mem_singleton.mp last)).1
  · intro line member written
    obtain rfl | blank := List.mem_cons.mp (split ▸ member : line ∈ _)
    · exact ⟨artifactDigest, artifact, by decide +kernel, [artifact], by simp, by decide +kernel⟩
    · rw [List.mem_singleton.mp blank] at written
      cases written

end Demo

end Torium.Release
