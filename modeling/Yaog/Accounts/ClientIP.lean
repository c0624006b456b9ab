import Yaog.Controller.Registry

/-!
# The rate-limit key of a client

Behind a trusted proxy the client is the last hop of the forwarding chain that is no trusted proxy.
-/

namespace Yaog.Accounts

open Net Controller

/-- What a request says about its origin. The host is that of `RemoteAddr`, or all of it when it has no
port; the headers are given by their lines. -/
structure Origin where
  host : String
  forwardedFor : List String := []
  realIP : List String := []

def ipInNets (text : String) (nets : List IPNet) : Bool :=
  match parseIP text with
  | none => false
  | some ip => nets.any (·.contains ip)

/-- `Header.Get`: the first line of a header. -/
def headerGet (lines : List String) : String := lines.head?.getD ""

/-- `strings.Split` at the commas. -/
def hops (line : String) : List String := (line.toList.splitOn ',').map String.ofList

/-- The loop of `clientIP` over the hops, from the right. -/
def lastUntrusted (nets : List IPNet) (hops : List String) : Option String :=
  hops.reverse.findSome? fun hop =>
    let ip := trimSpace hop
    if ip = "" ∨ parseIP ip = none then none
    else if ipInNets ip nets then none
    else some ip

def clientIP (nets : List IPNet) (origin : Origin) : String :=
  if nets = [] ∨ ipInNets origin.host nets = false then origin.host
  else
    let xff := headerGet origin.forwardedFor
    let client := if xff = "" then none else lastUntrusted nets (hops xff)
    let xr := trimSpace (headerGet origin.realIP)
    client.getD (if parseIP xr = none then origin.host else xr)

/-- The hops of all header lines, in order. -/
def Origin.chain (origin : Origin) : List String := origin.forwardedFor.flatMap hops

/-- A valid entry of the chain that is no trusted proxy. -/
def Foreign (nets : List IPNet) (hop : String) : Prop :=
  parseIP (trimSpace hop) ≠ none ∧ ipInNets (trimSpace hop) nets = false

instance (nets : List IPNet) (hop : String) : Decidable (Foreign nets hop) := inferInstanceAs (Decidable (_ ∧ _))

/-- No header line after the first, which alone is read, has a valid entry that is no trusted proxy. -/
def Origin.OneLine (nets : List IPNet) (origin : Origin) : Prop :=
  ∀ line ∈ origin.forwardedFor.tail, ∀ hop ∈ hops line, ¬Foreign nets hop

instance (nets : List IPNet) (origin : Origin) : Decidable (origin.OneLine nets) :=
  inferInstanceAs (Decidable (∀ line ∈ _, _))

/-- The first header line has the key as its own last untrusted hop too, or has none, and the proxy repeats
the key in `X-Real-IP`. -/
def Origin.Repeats (nets : List IPNet) (key : String) (origin : Origin) : Prop :=
  lastUntrusted nets (hops (headerGet origin.forwardedFor)) = some key ∨
    lastUntrusted nets (hops (headerGet origin.forwardedFor)) = none ∧ trimSpace (headerGet origin.realIP) = key

variable {nets : List IPNet} {key : String} {origin : Origin}

theorem lastUntrusted_spec {hops : List String} (found : lastUntrusted nets hops = some key) :
    parseIP key ≠ none ∧ ipInNets key nets = false := by
  obtain ⟨hop, -, same⟩ := List.exists_of_findSome?_eq_some found
  dsimp only at same
  split at same
  · cases same
  · next valid =>
    split at same
    · cases same
    · next untrusted =>
      cases same
      exact ⟨fun unparsed => valid (.inr unparsed), Bool.eq_false_iff.mpr untrusted⟩

theorem lastUntrusted_append (left edge : List String) :
    lastUntrusted nets (left ++ edge) = (lastUntrusted nets edge).or (lastUntrusted nets left) := by
  unfold lastUntrusted
  rw [List.reverse_append, List.findSome?_append]

theorem lastUntrusted_eq_none {hops : List String} (trusted : ∀ hop ∈ hops, ¬Foreign nets hop) :
    lastUntrusted nets hops = none := by
  refine List.findSome?_eq_none_iff.mpr fun hop member => ?_
  have known := trusted hop (List.mem_reverse.mp member)
  by_cases unread : trimSpace hop = "" ∨ parseIP (trimSpace hop) = none
  · simp [unread]
  · have inside : ipInNets (trimSpace hop) nets = true :=
      Bool.not_eq_false _ ▸ fun outside => known ⟨fun unparsed => unread (.inr unparsed), outside⟩
    simp [inside]

theorem lastUntrusted_empty : lastUntrusted nets (hops "") = none := by
  have empty : trimSpace (String.ofList []) = "" := by decide
  simp [lastUntrusted, hops, empty]

theorem clientIP_eq_iff (trusted : ipInNets origin.host nets = true) (parses : parseIP key ≠ none)
    (untrusted : ipInNets key nets = false) : clientIP nets origin = key ↔ origin.Repeats nets key := by
  have proxies : nets ≠ [] := by
    rintro rfl
    unfold ipInNets at trusted
    split at trusted <;> cases trusted
  have apart : origin.host ≠ key := fun same => by
    rw [same, untrusted] at trusted
    cases trusted
  have read : (if headerGet origin.forwardedFor = "" then none
      else lastUntrusted nets (hops (headerGet origin.forwardedFor))) =
        lastUntrusted nets (hops (headerGet origin.forwardedFor)) := by
    split
    · next blank => rw [blank, lastUntrusted_empty]
    · rfl
  unfold clientIP Origin.Repeats
  rw [if_neg (by simp [proxies, trusted])]
  simp only [read]
  cases lastUntrusted nets (hops (headerGet origin.forwardedFor)) with
  | some client => simp
  | none =>
    by_cases unparsed : parseIP (trimSpace (headerGet origin.realIP)) = none
    · have other : trimSpace (headerGet origin.realIP) ≠ key := fun same => parses (same ▸ unparsed)
      simp [unparsed, apart, other]
    · simp [unparsed]

theorem repeats_of_oneLine (oneLine : origin.OneLine nets) (chain : lastUntrusted nets origin.chain = some key) :
    origin.Repeats nets key := by
  refine .inl ?_
  cases lines : origin.forwardedFor with
  | nil => simp [Origin.chain, lines, lastUntrusted] at chain
  | cons line rest =>
    have silent : lastUntrusted nets (rest.flatMap hops) = none := by
      refine lastUntrusted_eq_none fun hop member => ?_
      obtain ⟨later, place, inside⟩ := List.mem_flatMap.mp member
      exact oneLine later (by simpa [lines] using place) hop inside
    rw [Origin.chain, lines, List.flatMap_cons, lastUntrusted_append, silent, Option.none_or] at chain
    exact chain

/-- Two requests through trusted proxies, whose chains agree from the last untrusted hop on. If no header line
after the first has an untrusted hop, both get this hop as their key; otherwise a request gets it only if what
is read repeats it. -/
theorem rateLimitKey_independent_iff (nets : List IPNet) (first second : Origin)
    (trusted : ipInNets first.host nets = true ∧ ipInNets second.host nets = true) (left left' edge : List String)
    (chains : first.chain = left ++ edge ∧ second.chain = left' ++ edge) (key : String)
    (edgeKey : lastUntrusted nets edge = some key) :
    (lastUntrusted nets first.chain = some key ∧ lastUntrusted nets second.chain = some key) ∧
      (first.OneLine nets ∧ second.OneLine nets → clientIP nets first = key ∧ clientIP nets second = key) ∧
      (clientIP nets first = key ∧ clientIP nets second = key ↔
        (first.OneLine nets ∨ first.Repeats nets key) ∧ (second.OneLine nets ∨ second.Repeats nets key)) := by
  obtain ⟨parses, untrusted⟩ := lastUntrusted_spec edgeKey
  have chainKey (left : List String) : lastUntrusted nets (left ++ edge) = some key := by
    rw [lastUntrusted_append, edgeKey]
    rfl
  have keyed (origin : Origin) (host : ipInNets origin.host nets = true) (left : List String)
      (chain : origin.chain = left ++ edge) :
      clientIP nets origin = key ↔ origin.OneLine nets ∨ origin.Repeats nets key := by
    have enough : origin.OneLine nets → origin.Repeats nets key := fun oneLine =>
      repeats_of_oneLine oneLine (chain ▸ chainKey left)
    rw [clientIP_eq_iff host parses untrusted]
    exact ⟨.inr, fun shown => shown.elim enough id⟩
  have both := and_congr (keyed first trusted.1 left chains.1) (keyed second trusted.2 left' chains.2)
  exact ⟨⟨chains.1 ▸ chainKey left, chains.2 ▸ chainKey left'⟩,
    fun lines => both.mpr ⟨.inl lines.1, .inl lines.2⟩, both⟩

def sampleProxies : List IPNet := (parseCIDR "10.0.0.0/8").toList

/-- The proxy appends the client it has seen to the header line it got, and a second proxy adds its own line. -/
theorem sampleAppended_key :
    let origin (left : String) : Origin :=
      { host := "10.0.0.1", forwardedFor := [left ++ ",1.2.3.4", "10.0.0.2, unknown"] }
    clientIP sampleProxies (origin "6.6.6.6") = "1.2.3.4" ∧ clientIP sampleProxies (origin "7.7.7.7") = "1.2.3.4" :=
  (rateLimitKey_independent_iff sampleProxies
    { host := "10.0.0.1", forwardedFor := ["6.6.6.6,1.2.3.4", "10.0.0.2, unknown"] }
    { host := "10.0.0.1", forwardedFor := ["7.7.7.7,1.2.3.4", "10.0.0.2, unknown"] } (by decide +kernel) ["6.6.6.6"]
    ["7.7.7.7"] ["1.2.3.4", "10.0.0.2", " unknown"] (by decide +kernel) "1.2.3.4" (by decide +kernel)).2.1
    (by decide +kernel)

/-- The proxy adds a line of its own, and the client chooses its key. -/
theorem sampleAdded_chosen :
    let origin (left : String) : Origin := { host := "10.0.0.1", forwardedFor := [left, "1.2.3.4"] }
    lastUntrusted sampleProxies (origin "6.6.6.6").chain = some "1.2.3.4" ∧
      lastUntrusted sampleProxies (origin "7.7.7.7").chain = some "1.2.3.4" ∧
      clientIP sampleProxies (origin "6.6.6.6") = "6.6.6.6" ∧ clientIP sampleProxies (origin "7.7.7.7") = "7.7.7.7" := by
  decide +kernel

end Yaog.Accounts
