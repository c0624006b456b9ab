import Yaog.Compiler.Peers

/-!
# Key pairs

`GenerateKeysWith` goes through the nodes before a compile, writes their keys back and returns the key map.
-/

namespace Yaog.Renderer

open Compiler List

def base64Alphabet : List Char :=
  "ABCDEFGHIJKLMNOPQRSTUVWXYZabcdefghijklmnopqrstuvwxyz0123456789+/".toList

def base64Char (number : Nat) : Char := base64Alphabet.getD (number % 64) 'A'

def encodeBase64 : List (BitVec 8) → List Char
  | [] => []
  | [a] => [base64Char (a.toNat / 4), base64Char (a.toNat * 16), '=', '=']
  | [a, b] =>
    [base64Char (a.toNat / 4), base64Char (a.toNat * 16 + b.toNat / 16), base64Char (b.toNat * 4), '=']
  | a :: b :: c :: rest =>
    base64Char (a.toNat / 4) :: base64Char (a.toNat * 16 + b.toNat / 16) ::
      base64Char (b.toNat * 4 + c.toNat / 64) :: base64Char c.toNat :: encodeBase64 rest

def isBase64 (c : Char) : Bool := isLetter c || c.isDigit || c = '+' || c = '/' || c = '='

theorem isBase64_base64Char (number : Nat) : isBase64 (base64Char number) = true := by
  have all : ∀ index < 64, isBase64 (base64Alphabet.getD index 'A') = true := by decide +kernel
  exact all _ (Nat.mod_lt _ (by decide))

theorem isBase64_encodeBase64 (bytes : List (BitVec 8)) : ∀ c ∈ encodeBase64 bytes, isBase64 c = true := by
  have padding : isBase64 '=' = true := by decide
  fun_induction encodeBase64 bytes with
  | case1 => simp
  | case2 a => simp [isBase64_base64Char, padding]
  | case3 a b => simp [isBase64_base64Char, padding]
  | case4 a b c rest ih =>
    simp only [mem_cons, forall_eq_or_imp, isBase64_base64Char, true_and]
    exact ih

/-- A key of the curve. -/
structure Key where
  bytes : List (BitVec 8)
  size : bytes.length = 32

def Key.text (key : Key) : String := String.ofList (encodeBase64 key.bytes)

/-- A private key is a text of base64 that decodes to a key; `fresh` is what the random source yields for the node at
a position. -/
structure Keygen where
  decode : String → Option Key
  publicKey : Key → Key
  fresh : Nat → Option Key

inductive KeyCustody where
  | airGap | agentHeld

inductive KeygenError where
  | missingPubkey (node : String)
  | privkeyParse (node : String)
  | pinnedNoPrivkey (node : String)
  | generateFailed (node : String)

def privateKeyPlaceholder : String := "PRIVATEKEY_PLACEHOLDER"

section

variable (custody : KeyCustody) (keygen : Keygen)

def withPair (node : Node) (pair : KeyPair) : Node × KeyPair :=
  ({ node with wireGuardPrivateKey := pair.privateKey, wireGuardPublicKey := pair.publicKey }, pair)

def generateKey (position : Nat) (node : Node) : Except KeygenError (Node × KeyPair) :=
  match custody with
  | .agentHeld =>
    -- a registered public key is trusted as it is; the private half never leaves the agent
    let held (publicKey : String) : Node × KeyPair :=
      ({ node with wireGuardPublicKey := publicKey, wireGuardPrivateKey := "" },
        { privateKey := privateKeyPlaceholder, publicKey })
    if node.wireGuardPublicKey ≠ "" then .ok (held node.wireGuardPublicKey)
    else if node.wireGuardPrivateKey = "" then .error (.missingPubkey node.id)
    else
      match keygen.decode node.wireGuardPrivateKey with
      | none => .error (.privkeyParse node.id)
      | some key => .ok (held (keygen.publicKey key).text)
  | .airGap =>
    if node.wireGuardPrivateKey ≠ "" then
      match keygen.decode node.wireGuardPrivateKey with
      | none => .error (.privkeyParse node.id)
      | some key => .ok (withPair node { privateKey := key.text, publicKey := (keygen.publicKey key).text })
    else if node.wireGuardPublicKey ≠ "" then .error (.pinnedNoPrivkey node.id)
    else
      match keygen.fresh position with
      | none => .error (.generateFailed node.id)
      | some key => .ok (withPair node { privateKey := key.text, publicKey := (keygen.publicKey key).text })

/-- The loop over the nodes from a position on; of two nodes with one identifier the later one is in the map. -/
def generateKeysFrom : Nat → List Node → Except KeygenError (List Node × Keys)
  | _, [] => .ok ([], fun _ => none)
  | position, node :: rest =>
    match generateKey custody keygen position node with
    | .error reason => .error reason
    | .ok (keyed, pair) =>
      match generateKeysFrom (position + 1) rest with
      | .error reason => .error reason
      | .ok (nodes, keys) =>
        .ok (keyed :: nodes, fun id => (keys id).or (if id = node.id then some pair else none))

/-- `GenerateKeysWith`. -/
def generateKeysWith (topo : Topology) : Except KeygenError (Topology × Keys) :=
  match generateKeysFrom custody keygen 0 topo.nodes with
  | .error reason => .error reason
  | .ok (nodes, keys) => .ok ({ topo with nodes }, keys)

end

/-- The texts a private key can have in a pair. -/
inductive PrivateText : String → Prop where
  | placeholder : PrivateText privateKeyPlaceholder
  | key (key : Key) : PrivateText key.text

/-- The pair generated for a node. -/
structure Paired (keyed : Node) (pair : KeyPair) : Prop where
  publicKey : pair.publicKey = keyed.wireGuardPublicKey
  publicSet : pair.publicKey ≠ ""
  privateText : PrivateText pair.privateKey

theorem Key.text_ne_empty (key : Key) : key.text ≠ "" := by
  obtain ⟨bytes, size⟩ := key
  rw [Key.text, ne_eq, String.ofList_eq_empty_iff]
  fun_cases encodeBase64 bytes
  case case1 => cases size
  all_goals exact cons_ne_nil _ _

theorem PrivateText.ne_empty {text : String} (isPrivate : PrivateText text) : text ≠ "" := by
  cases isPrivate with
  | placeholder => decide
  | key key => exact key.text_ne_empty

section

variable {custody : KeyCustody} {keygen : Keygen} {position : Nat} {keys : Keys}

theorem generateKey_paired {node keyed : Node} {pair : KeyPair}
    (generated : generateKey custody keygen position node = .ok (keyed, pair)) :
    keyed.id = node.id ∧ Paired keyed pair := by
  rw [generateKey.eq_def] at generated
  split at generated
  case h_1 =>
    split at generated
    case isTrue set =>
      cases generated
      exact ⟨rfl, rfl, set, .placeholder⟩
    case isFalse =>
      split at generated
      case isTrue => cases generated
      case isFalse =>
        split at generated
        case h_1 => cases generated
        case h_2 key _ =>
          cases generated
          exact ⟨rfl, rfl, Key.text_ne_empty _, .placeholder⟩
  case h_2 =>
    split at generated
    case isTrue =>
      split at generated
      case h_1 => cases generated
      case h_2 key _ =>
        cases generated
        exact ⟨rfl, rfl, Key.text_ne_empty _, .key key⟩
    case isFalse =>
      split at generated
      case isTrue => cases generated
      case isFalse =>
        split at generated
        case h_1 => cases generated
        case h_2 key _ =>
          cases generated
          exact ⟨rfl, rfl, Key.text_ne_empty _, .key key⟩

theorem generateKeysFrom_cons {node : Node} {rest nodes : List Node}
    (generated : generateKeysFrom custody keygen position (node :: rest) = .ok (nodes, keys)) :
    ∃ keyed pair later others, generateKey custody keygen position node = .ok (keyed, pair) ∧
      generateKeysFrom custody keygen (position + 1) rest = .ok (later, others) ∧ nodes = keyed :: later ∧
      keys = fun id => (others id).or (if id = node.id then some pair else none) := by
  rw [generateKeysFrom] at generated
  split at generated
  case h_1 => cases generated
  case h_2 keyed pair first =>
    split at generated
    case h_1 => cases generated
    case h_2 later others after =>
      cases generated
      exact ⟨keyed, pair, later, others, first, after, rfl, rfl⟩

theorem generateKeysFrom_domain {given nodes : List Node}
    (generated : generateKeysFrom custody keygen position given = .ok (nodes, keys)) {id : String}
    (foreign : id ∉ nodes.map (·.id)) : keys id = none := by
  induction given generalizing position nodes keys with
  | nil =>
    cases generated
    rfl
  | cons node rest ih =>
    obtain ⟨keyed, pair, later, others, first, after, rfl, rfl⟩ := generateKeysFrom_cons generated
    rw [map_cons, mem_cons, not_or, (generateKey_paired first).1] at foreign
    simp only [ih after foreign.2, if_neg foreign.1, Option.or_none]

theorem generateKeysFrom_paired {given nodes : List Node}
    (generated : generateKeysFrom custody keygen position given = .ok (nodes, keys))
    (distinct : (nodes.map (·.id)).Nodup) : ∀ node ∈ nodes, ∃ pair, keys node.id = some pair ∧ Paired node pair := by
  induction given generalizing position nodes keys with
  | nil =>
    cases generated
    simp
  | cons node rest ih =>
    obtain ⟨keyed, pair, later, others, first, after, rfl, rfl⟩ := generateKeysFrom_cons generated
    obtain ⟨fresh, distinctLater⟩ := nodup_cons.mp distinct
    obtain ⟨sameID, paired⟩ := generateKey_paired first
    refine forall_mem_cons.mpr ⟨⟨pair, ?_, paired⟩, fun other member => ?_⟩
    · have absent : others keyed.id = none := generateKeysFrom_domain after fresh
      simp only [absent, if_pos sameID, Option.none_or]
    · obtain ⟨found, isKey, good⟩ := ih after distinctLater other member
      exact ⟨found, by simp only [isKey, Option.some_or], good⟩

theorem generateKeysWith_paired {input topo : Topology}
    (generated : generateKeysWith custody keygen input = .ok (topo, keys)) (distinct : (topo.nodes.map (·.id)).Nodup) :
    ∀ node ∈ topo.nodes, ∃ pair, keys node.id = some pair ∧ Paired node pair := by
  rw [generateKeysWith] at generated
  split at generated
  case h_1 => cases generated
  case h_2 nodes found looped =>
    cases generated
    exact generateKeysFrom_paired looped distinct

end

end Yaog.Renderer
