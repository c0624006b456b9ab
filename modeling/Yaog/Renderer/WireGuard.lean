import Yaog.Compiler.Peers
import Yaog.Data.ConfigText

/-!
# The WireGuard configuration of a peer

The template writes its values between fixed texts and quotes nothing. What `wg-quick` reads back, and what it hands to
a root shell from the `PostUp` lines, is what the template means as long as no value brings a line break, a comment, a
blank or anything the shell acts on.
-/

namespace Yaog.Renderer

open Compiler Data List

variable {key address : String} {lines : List String} {directives : List Directive}

section

variable (node : Node) (peer : PeerInfo) (keys : KeyPair)

def commandText (verb address : String) : String := verb ++ " " ++ address ++ " dev %i 2>/dev/null || true"

/-- The lines of `wgPerPeerConfigTemplate`. -/
def perPeerLines : List String :=
  ["# WireGuard per-peer interface: " ++ peer.interfaceName,
    "# Node: " ++ node.name ++ " -> Peer: " ++ peer.nodeName,
    "# Generated by Overlay Network Config Orchestrator",
    "",
    "[Interface]",
    settingLine "PrivateKey" keys.privateKey,
    settingLine "Address" (peer.localTransitIP ++ "/32"),
    settingLine "Table" "off"]
  ++ (if 0 < peer.listenPort then [settingLine "ListenPort" (toString peer.listenPort)] else [])
  ++ (if 0 < peer.mtu then [settingLine "MTU" (toString peer.mtu)] else [])
  ++ ["",
    "# Add IPv6 link-local for Babel",
    settingLine "PostUp" (commandText "ip -6 addr add" (peer.localLinkLocal ++ "/64")),
    settingLine "PostDown" (commandText "ip -6 addr del" (peer.localLinkLocal ++ "/64"))]
  ++ (if peer.clientOverlayIP ≠ "" then
      ["# Route client overlay IP through this interface (discovered by Babel)",
        settingLine "PostUp" (commandText "ip route replace" (peer.clientOverlayIP ++ "/32")),
        settingLine "PostDown" (commandText "ip route del" (peer.clientOverlayIP ++ "/32"))]
    else [])
  ++ ["",
    "# Peer: " ++ peer.nodeName,
    "[Peer]",
    settingLine "PublicKey" peer.publicKey,
    settingLine "AllowedIPs" (", ".intercalate peer.allowedIPs)]
  ++ (if peer.endpoint ≠ "" then [settingLine "Endpoint" peer.endpoint] else [])
  ++ (if 0 < peer.persistentKeepalive then
      [settingLine "PersistentKeepalive" (toString peer.persistentKeepalive)]
    else [])

/-- `RenderPerPeerWireGuardConfig`. -/
def renderPerPeerWireGuardConfig : String := unlines (perPeerLines node peer keys)

end

inductive RenderError where
  | missingKey (nodeID : String)

/-- `RenderAllWireGuardConfigs`: the configurations by node and interface. -/
def renderAllWireGuardConfigs (topo : Topology) (keys : Keys) :
    Peers → Except RenderError (List (String × String))
  | [] => .ok []
  | (nodeID, peer) :: rest =>
    match topo.node? nodeID with
    | none => renderAllWireGuardConfigs topo keys rest
    | some node =>
      match keys nodeID with
      | none => .error (.missingKey nodeID)
      | some pair =>
        match renderAllWireGuardConfigs topo keys rest with
        | .error reason => .error reason
        | .ok configs =>
          .ok ((nodeID ++ ":" ++ peer.interfaceName, renderPerPeerWireGuardConfig node peer pair) :: configs)

section

variable (node : Node) (peer : PeerInfo) (keys : KeyPair)

def listed : List String → List String
  | [] => []
  | [last] => [last]
  | item :: rest => (item ++ ",") :: listed rest

def command (verb : List String) (address : String) : List String :=
  verb ++ [address, "dev", "%i", "2>/dev/null", "||", "true"]

def perPeerDirectives : List Directive :=
  [⟨["[Interface]"], []⟩,
    ⟨["PrivateKey"], [keys.privateKey]⟩,
    ⟨["Address"], [peer.localTransitIP ++ "/32"]⟩,
    ⟨["Table"], ["off"]⟩]
  ++ (if 0 < peer.listenPort then [⟨["ListenPort"], [toString peer.listenPort]⟩] else [])
  ++ (if 0 < peer.mtu then [⟨["MTU"], [toString peer.mtu]⟩] else [])
  ++ [⟨["PostUp"], command ["ip", "-6", "addr", "add"] (peer.localLinkLocal ++ "/64")⟩,
    ⟨["PostDown"], command ["ip", "-6", "addr", "del"] (peer.localLinkLocal ++ "/64")⟩]
  ++ (if peer.clientOverlayIP ≠ "" then
      [⟨["PostUp"], command ["ip", "route", "replace"] (peer.clientOverlayIP ++ "/32")⟩,
        ⟨["PostDown"], command ["ip", "route", "del"] (peer.clientOverlayIP ++ "/32")⟩]
    else [])
  ++ [⟨["[Peer]"], []⟩,
    ⟨["PublicKey"], [peer.publicKey]⟩,
    ⟨["AllowedIPs"], listed peer.allowedIPs⟩]
  ++ (if peer.endpoint ≠ "" then [⟨["Endpoint"], [peer.endpoint]⟩] else [])
  ++ (if 0 < peer.persistentKeepalive then [⟨["PersistentKeepalive"], [toString peer.persistentKeepalive]⟩] else [])

/-- Where a value stands: in a comment, as the value of a setting, or in a command for the shell. -/
inductive Place where
  | comment | setting | shell
  deriving DecidableEq, Repr

/-- Control characters, line breaks among them, and the characters by which a shell separates, expands and quotes. -/
def shellActive (c : Char) : Bool := c.toNat < 32 || c.toNat = 127 || c ∈ "|&;<>()$`\\\"'*?#~!\x7b\x7d".toList

/-- A comment may hold blanks, a setting the brackets of an address; in a command the brackets are a pattern. -/
def Place.forbids : Place → Char → Bool
  | .comment, c => shellActive c
  | .setting, c => shellActive c || c = ' '
  | .shell, c => shellActive c || c = ' ' || c = '[' || c = ']'

def Place.Inert (place : Place) (text : String) : Prop := ∀ c ∈ text.toList, place.forbids c = false

def interpolated : List (Place × String) :=
  [(.comment, peer.interfaceName), (.comment, node.name), (.comment, peer.nodeName), (.setting, keys.privateKey),
    (.setting, peer.localTransitIP), (.setting, toString peer.listenPort), (.setting, toString peer.mtu),
    (.shell, peer.localLinkLocal), (.shell, peer.clientOverlayIP), (.setting, peer.publicKey)]
  ++ peer.allowedIPs.map (fun allowed => (.setting, allowed))
  ++ [(.setting, peer.endpoint), (.setting, toString peer.persistentKeepalive)]

end

section

variable {node : Node} {peer : PeerInfo} {keys : KeyPair} {place : Place} {text : String} {value : String}
  {items : List String}

theorem Place.Inert.quiet (inert : place.Inert text) : ∀ c ∈ text.toList, shellActive c = false := by
  intro c member
  have allowed := inert c member
  cases place <;> simp only [Place.forbids, Bool.or_eq_false_iff] at allowed
  · exact allowed
  · exact allowed.1
  · exact allowed.1.1.1

theorem ne_of_quiet {c active : Char} (quiet : shellActive c = false) (isActive : shellActive active = true) :
    c ≠ active := by
  rintro rfl
  rw [isActive] at quiet
  cases quiet

theorem Place.Inert.unbroken (inert : place.Inert text) : Unbroken text :=
  fun c member => ne_of_quiet (inert.quiet c member) (by decide)

theorem Place.Inert.uncommented (inert : place.Inert text) : ∀ c ∈ text.toList, c ≠ '#' :=
  fun c member => ne_of_quiet (inert.quiet c member) (by decide)

theorem Place.Inert.solid (inert : place.Inert text) (outside : place ≠ .comment) :
    ∀ c ∈ text.toList, isBlank c = false := by
  intro c member
  have tab := ne_of_quiet (inert.quiet c member) (show shellActive '\t' = true by decide)
  have allowed := inert c member
  have space : c ≠ ' ' := by
    cases place with
    | comment => exact absurd rfl outside
    | setting | shell =>
      simp only [Place.forbids, Bool.or_eq_false_iff, decide_eq_false_iff_not] at allowed
      simp [allowed]
  simp [isBlank, space, tab]

theorem Place.Inert.append {more : String} (inert : place.Inert text) (also : place.Inert more) :
    place.Inert (text ++ more) := by
  intro c member
  rw [String.toList_append, mem_append] at member
  exact member.elim (inert c) (also c)

theorem unbroken_settingLine (keyWhole : Unbroken key) (valueWhole : Unbroken value) :
    Unbroken (settingLine key value) :=
  (keyWhole.append (chars_of_all (by decide))).append valueWhole

/-- A key of the template, as `wg-quick` reads it. -/
structure IsKey (key : String) : Prop where
  word : Word key
  plain : ∀ c ∈ key.toList, c ≠ '#' ∧ c ≠ '='
  unbroken : Unbroken key

theorem IsKey.of_letters (nonempty : key ≠ "") (letters : key.toList.all isLetter = true) : IsKey key := by
  have letter : ∀ {c other : Char}, c ∈ key.toList → isLetter other = false → c ≠ other := by
    rintro c other member odd rfl
    rw [all_eq_true.mp letters c member] at odd
    cases odd
  refine ⟨⟨nonempty, fun c member => ?_⟩, fun c member => ⟨letter member (by decide), letter member (by decide)⟩,
    fun c member => letter member (by decide)⟩
  simp [isBlank, letter member (show isLetter ' ' = false by decide), letter member (show isLetter '\t' = false by decide)]

theorem readAs_value (inert : Place.setting.Inert value) (nonempty : value ≠ "")
    (rest : ReadAs lines directives) (isKey : IsKey key := by exact .of_letters (by decide) (by decide)) :
    ReadAs (settingLine key value :: lines) (⟨[key], [value]⟩ :: directives) := by
  refine rest.take (unbroken_settingLine isKey.unbroken inert.unbroken) ?_
  rw [readLine_setting isKey.word isKey.plain inert.uncommented, words_of_word ⟨nonempty, inert.solid (by decide)⟩]

theorem words_commandText (verb : String) (word : Word address) :
    words (commandText verb address).toList = command (words verb.toList) address := by
  have chars : (commandText verb address).toList =
      verb.toList ++ ' ' :: (address.toList ++ ' ' :: "dev %i 2>/dev/null || true".toList) := by
    simp [commandText]
  have ending : words "dev %i 2>/dev/null || true".toList = ["dev", "%i", "2>/dev/null", "||", "true"] := by
    decide +kernel
  rw [chars, words_blank, words_cons word, ending, command]

theorem readAs_comment {line : String}
    (opens : line.toList.head? = some '#') (unbroken : Unbroken line) (rest : ReadAs lines directives) :
    ReadAs (line :: lines) directives :=
  rest.skip unbroken (readLine_comment opens)

theorem words_intercalate (each : ∀ item ∈ items, Word item) :
    words (", ".intercalate items).toList = listed items := by
  induction items with
  | nil => rfl
  | cons item rest ih =>
    have word := each item mem_cons_self
    cases rest with
    | nil =>
      exact words_of_word word
    | cons second more =>
      have comma : Word (item ++ ",") := by
        refine ⟨by simp, fun c member => ?_⟩
        rw [String.toList_append, mem_append] at member
        rcases member with inItem | isComma
        · exact word.solid c inItem
        · rw [mem_singleton.mp isComma]
          decide
      have chars : (", ".intercalate (item :: second :: more)).toList =
          (item ++ ",").toList ++ ' ' :: (", ".intercalate (second :: more)).toList := by
        simp
      rw [chars, words_cons comma, ih fun other member => each other (mem_cons_of_mem _ member)]
      rfl

theorem Place.Inert.setting (inert : Place.shell.Inert text) : Place.setting.Inert text := by
  intro c member
  have allowed := inert c member
  simp only [Place.forbids, Bool.or_eq_false_iff] at allowed ⊢
  exact allowed.1.1

theorem readAs_command {verb length : String} (inert : Place.shell.Inert address) (rest : ReadAs lines directives)
    (isKey : IsKey key := by exact .of_letters (by decide) (by decide))
    (plain : ∀ c ∈ verb.toList, c ≠ '#' ∧ c ≠ '\n' := by exact chars_of_all (by decide))
    (inertLength : Place.setting.Inert length := by exact chars_of_all (by decide))
    (nonempty : length ≠ "" := by decide) :
    ReadAs (settingLine key (commandText verb (address ++ length)) :: lines)
      (⟨[key], command (words verb.toList) (address ++ length)⟩ :: directives) := by
  have inert := inert.setting.append inertLength
  have whole : ∀ c ∈ (commandText verb (address ++ length)).toList, c ≠ '#' ∧ c ≠ '\n' := by
    have space : ∀ c ∈ " ".toList, c ≠ '#' ∧ c ≠ '\n' := chars_of_all (by decide)
    have device : ∀ c ∈ " dev %i 2>/dev/null || true".toList, c ≠ '#' ∧ c ≠ '\n' := chars_of_all (by decide)
    intro c member
    rw [commandText, String.toList_append, String.toList_append, String.toList_append, mem_append, mem_append,
      mem_append] at member
    rcases member with ((inVerb | blank) | inAddress) | ending
    · exact plain c inVerb
    · exact space c blank
    · exact ⟨inert.uncommented c inAddress, inert.unbroken c inAddress⟩
    · exact device c ending
  refine rest.take (unbroken_settingLine isKey.unbroken fun c member => (whole c member).2) ?_
  rw [readLine_setting isKey.word isKey.plain fun c member => (whole c member).1,
    words_commandText verb ⟨by simp [nonempty], inert.solid (by decide)⟩]

theorem Place.Inert.intercalate (each : ∀ item ∈ items, Place.comment.Inert item) :
    Place.comment.Inert (", ".intercalate items) := by
  induction items with
  | nil => simp [Place.Inert]
  | cons item rest ih =>
    have first := each item mem_cons_self
    have later := ih fun other member => each other (mem_cons_of_mem _ member)
    cases rest with
    | nil =>
      exact first
    | cons second more =>
      rw [String.intercalate_cons_of_ne_nil (by simp)]
      exact (first.append (chars_of_all (by decide))).append later

theorem readAs_number (key : String) (number : Int) (inert : Place.setting.Inert (toString number))
    (isKey : IsKey key := by exact .of_letters (by decide) (by decide)) :
    ReadAs (if 0 < number then [settingLine key (toString number)] else [])
      (if 0 < number then [⟨[key], [toString number]⟩] else []) := by
  refine ReadAs.ite fun _ => readAs_value inert ?_ ReadAs.nil isKey
  cases number with
  | ofNat number =>
    change Nat.repr number ≠ ""
    simp
  | negSucc number => omega

theorem readConfig_perPeer (inert : ∀ entry ∈ interpolated node peer keys, entry.1.Inert entry.2)
    (privateKey : keys.privateKey ≠ "") (publicKey : peer.publicKey ≠ "")
    (allowed : ∀ item ∈ peer.allowedIPs, item ≠ "") :
    readConfig (renderPerPeerWireGuardConfig node peer keys) = perPeerDirectives peer keys := by
  have each : ∀ item ∈ peer.allowedIPs, Place.setting.Inert item := fun item member =>
    inert (.setting, item) (by simp [interpolated, member])
  simp only [interpolated, forall_mem_append, forall_mem_cons] at inert
  obtain ⟨⟨⟨interfaceName, name, peerName, secret, transit, listenPort, mtu, linkLocal, client, registered, -⟩, -⟩,
    endpoint, keepalive, -⟩ := inert
  have joined : Place.comment.Inert (", ".intercalate peer.allowedIPs) :=
    Place.Inert.intercalate fun item member => (each item member).quiet
  have isKey : IsKey "AllowedIPs" := .of_letters (by decide) (by decide)
  refine ReadAs.readConfig (.append (.append (.append (.append (.append (.append (.append ?head
    (readAs_number "ListenPort" _ listenPort)) (readAs_number "MTU" _ mtu)) ?commands) (.ite fun _ => ?route)) ?peer)
    (.ite fun given => readAs_value endpoint given .nil)) (readAs_number "PersistentKeepalive" _ keepalive))
  case head =>
    refine readAs_comment (by simp) (Unbroken.append (chars_of_all (by decide)) interfaceName.unbroken) ?_
    refine readAs_comment (by simp) (Unbroken.append (Unbroken.append (Unbroken.append (chars_of_all (by decide))
      name.unbroken) (chars_of_all (by decide))) peerName.unbroken) ?_
    refine readAs_comment (by decide) (chars_of_all (by decide)) ?_
    refine ReadAs.skip (chars_of_all (by decide)) (by decide) ?_
    refine ReadAs.take (chars_of_all (by decide))
      (readLine_header ⟨by decide, chars_of_all (by decide)⟩ (chars_of_all (by decide))) ?_
    refine readAs_value secret privateKey ?_
    refine readAs_value (transit.append (chars_of_all (by decide))) (by simp) ?_
    exact readAs_value (chars_of_all (by decide)) (by decide) .nil
  case commands =>
    refine ReadAs.skip (chars_of_all (by decide)) (by decide) ?_
    refine readAs_comment (by decide) (chars_of_all (by decide)) ?_
    exact readAs_command linkLocal (readAs_command linkLocal .nil)
  case route =>
    refine readAs_comment (by decide) (chars_of_all (by decide)) ?_
    exact readAs_command client (readAs_command client .nil)
  case peer =>
    refine ReadAs.skip (chars_of_all (by decide)) (by decide) ?_
    refine readAs_comment (by simp) (Unbroken.append (chars_of_all (by decide)) peerName.unbroken) ?_
    refine ReadAs.take (chars_of_all (by decide))
      (readLine_header ⟨by decide, chars_of_all (by decide)⟩ (chars_of_all (by decide))) ?_
    refine readAs_value registered publicKey ?_
    refine ReadAs.nil.take (unbroken_settingLine isKey.unbroken joined.unbroken) ?_
    rw [readLine_setting isKey.word isKey.plain joined.uncommented,
      words_intercalate fun item member => ⟨allowed item member, (each item member).solid (by decide)⟩]

end

end Yaog.Renderer
