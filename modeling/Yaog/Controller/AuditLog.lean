import Yaog.Controller.Store
import Yaog.Data.Lines

/-!
# The audit log on disk

Entries are chained by their hashes and appended to a file, one JSON object in a line.
-/

namespace Yaog.Controller

open Data

/-- An audit entry in its place in the chain. -/
structure ChainedEntry extends AuditEntry where
  seq : Nat := 0
  prevHash : String := ""
  hash : String := ""
  deriving DecidableEq, Repr

/-- JSON, SHA-256 in hex, and the RFC 3339 text of a time. -/
structure AuditFormat where
  json : LineCodec ChainedEntry
  sha256 : String → String
  formatTime : Nat → String

inductive AuditError where
  | parse

section

variable (format : AuditFormat)

/-- `canonicalAuditBytes`: everything but the hash. Entries without an event keep the older form. -/
def canonicalAuditBytes (entry : ChainedEntry) : String :=
  if entry.eventID = "" then
    toString entry.seq ++ "\n" ++ format.formatTime entry.timestamp ++ "\n" ++ entry.actor ++ "\n"
      ++ entry.action ++ "\n" ++ entry.nodeID ++ "\n" ++ entry.prevHash ++ "\n"
  else
    "v2\n" ++ toString entry.seq ++ "\n" ++ format.formatTime entry.timestamp ++ "\n" ++ entry.actor ++ "\n"
      ++ entry.action ++ "\n" ++ entry.nodeID ++ "\n" ++ entry.eventID ++ "\n" ++ entry.prevHash ++ "\n"

def chainAudit (entry : ChainedEntry) (prevHash : String) : ChainedEntry :=
  let linked := { entry with prevHash }
  { linked with hash := format.sha256 (canonicalAuditBytes format linked) }

/-- The loop of `VerifyAuditChain` at an index. -/
def verifyFrom (prev : String) (index : Nat) : List ChainedEntry → Int
  | [] => -1
  | entry :: rest =>
    if entry.prevHash ≠ prev then index
    else if (chainAudit format entry prev).hash ≠ entry.hash then index
    else verifyFrom entry.hash (index + 1) rest

/-- `VerifyAuditChain`: the index of the first entry that breaks the chain, or -1. -/
def verifyAuditChain : List ChainedEntry → Int
  | [] => -1
  | entry :: rest => verifyFrom format entry.prevHash 0 (entry :: rest)

/-- `strings.TrimSpace` leaves nothing: only the UTF-8 bytes of white space. -/
def blank : List UInt8 → Bool
  | [] => true
  | 0x09 :: rest | 0x0a :: rest | 0x0b :: rest | 0x0c :: rest | 0x0d :: rest | 0x20 :: rest => blank rest
  | 0xc2 :: 0x85 :: rest | 0xc2 :: 0xa0 :: rest => blank rest
  | 0xe1 :: 0x9a :: 0x80 :: rest => blank rest
  | 0xe2 :: 0x80 :: last :: rest =>
    if (0x80 ≤ last && last ≤ 0x8a) || last = 0xa8 || last = 0xa9 || last = 0xaf then blank rest else false
  | 0xe2 :: 0x81 :: 0x9f :: rest => blank rest
  | 0xe3 :: 0x80 :: 0x80 :: rest => blank rest
  | _ => false

def parseLines : List (List UInt8) → Except AuditError (List ChainedEntry × Bool)
  | [] => .ok ([], false)
  | line :: rest =>
    if blank line then parseLines rest
    else
      match format.json.decode line with
      | none => if rest.all blank then .ok ([], true) else .error .parse
      | some entry => (parseLines rest).map fun (entries, tornTail) => (entry :: entries, tornTail)

def readAuditJSONL (data : List UInt8) : Except AuditError (List ChainedEntry × Bool) :=
  parseLines format (data.splitOn newline)

structure AuditTail where
  seq : Nat
  hash : String
  count : Nat

/-- The files of a tenant's log and the tail cached while the store is open. -/
structure AuditFile where
  log : Option (List UInt8) := none
  /-- The array of the older format. -/
  legacy : Option (List ChainedEntry) := none
  tail : Option AuditTail := none

/-- `readAudit`, which `listAudit` returns. -/
def AuditFile.listAudit (file : AuditFile) : Except AuditError (List ChainedEntry) :=
  match file.log with
  | some data => (readAuditJSONL format data).map (·.1)
  | none => .ok (file.legacy.getD [])

def AuditFile.migrate (file : AuditFile) : AuditFile :=
  match file.log, file.legacy with
  | none, some legacy => { file with log := some (format.json.lines legacy), legacy := none }
  | _, _ => file

def tailOf (entries : List ChainedEntry) : AuditTail :=
  match entries.getLast? with
  | none => { seq := 0, hash := "", count := 0 }
  | some last => { seq := last.seq, hash := last.hash, count := entries.length }

/-- `loadAuditTail`: the first use migrates the older format and heals a torn last line. -/
def AuditFile.loadAuditTail (file : AuditFile) : Except AuditError (AuditFile × AuditTail) :=
  match file.tail with
  | some tail => .ok (file, tail)
  | none => do
      let file := file.migrate format
      let (entries, tornTail) ←
        match file.log with
        | some data => readAuditJSONL format data
        | none => .ok ([], false)
      let tail := tailOf entries
      let log := if tornTail then some (format.json.lines entries) else file.log
      .ok ({ file with log, tail := some tail }, tail)

/-- `rotateAudit`. -/
def AuditFile.rotateAudit (file : AuditFile) (tail : AuditTail) : AuditFile :=
  match readAuditJSONL format (file.log.getD []) with
  | .error _ => file
  | .ok (entries, _) =>
    if entries.length ≤ auditRetain then
      { file with tail := some { tail with count := entries.length } }
    else
      let kept := entries.drop (entries.length - auditRetain)
      { file with log := some (format.json.lines kept), tail := some { tail with count := kept.length } }

/-- How an append goes: the line is written and synced, and the rotation if there is one may fail; an
error is returned after some bytes of the line; or the process dies after some bytes of it. -/
inductive AppendOutcome where
  | success (rotates : Bool)
  | failed (written : Nat)
  | crashed (written : Nat)

def AuditFile.nextEntry (file : AuditFile) (entry : AuditEntry) :
    Except AuditError (AuditFile × AuditTail × ChainedEntry) := do
  let (file, tail) ← file.loadAuditTail format
  .ok (file, tail, chainAudit format { entry with seq := tail.seq + 1 } tail.hash)

def AuditFile.write (file : AuditFile) (bytes : List UInt8) : AuditFile :=
  { file with log := some (file.log.getD [] ++ bytes) }

/-- `appendAudit`; the entry is returned when it is acknowledged. -/
def AuditFile.appendAudit (file : AuditFile) (entry : AuditEntry) (outcome : AppendOutcome) :
    AuditFile × Option ChainedEntry :=
  match file.nextEntry format entry with
  | .error _ => (file, none)
  | .ok (file, tail, chained) =>
    let line := format.json.line chained
    match outcome with
    | .failed written => (file.write (line.take written), none)
    | .crashed written => ({ file.write (line.take written) with tail := none }, none)
    | .success rotates =>
      let tail := { seq := chained.seq, hash := chained.hash, count := tail.count + 1 }
      let file := { file.write line with tail := some tail }
      (if auditRotateAt < tail.count ∧ rotates = true then file.rotateAudit format tail else file, some chained)

inductive AuditEvent where
  | append (entry : AuditEntry) (outcome : AppendOutcome)
  | reopen

/-- The files with the acknowledged entries in their order. -/
structure AuditRun where
  file : AuditFile := {}
  acknowledged : List ChainedEntry := []

def AuditRun.step (run : AuditRun) : AuditEvent → AuditRun
  | .append entry outcome =>
    let (file, chained) := run.file.appendAudit format entry outcome
    { file, acknowledged := run.acknowledged ++ chained.toList }
  | .reopen => { run with file := { run.file with tail := none } }

def AuditRun.after (run : AuditRun) (events : List AuditEvent) : AuditRun := events.foldl (AuditRun.step format) run

end

end Yaog.Controller
