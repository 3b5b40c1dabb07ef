import PeerLink.Naming

/-!
Contract: what software a remote node runs, as far as it says so itself.

Owns:
- the known client types, their names, and the two ways to read one: a name in any ASCII case,
  or the exact name;
- classification of a self-reported agent string;
- the identity slot of a peer, which keeps the first identity it is given.

Does not own: the exchange that obtains the agent string.
-/

namespace PeerLink

/-- Coarse classification of the software a peer runs. -/
inductive ClientType where
  | grandine | lighthouse | lodestar | nimbus | prysm | teku
  | unknown
deriving DecidableEq, Repr, Inhabited

namespace ClientType

def all : List ClientType := [grandine, lighthouse, lodestar, nimbus, prysm, teku, unknown]

def name : ClientType → String
  | grandine => "grandine"
  | lighthouse => "lighthouse"
  | lodestar => "lodestar"
  | nimbus => "nimbus"
  | prysm => "prysm"
  | teku => "teku"
  | unknown => "unknown"

/-- The capitalised name used in the debug text of a peer. -/
def label : ClientType → String
  | grandine => "Grandine"
  | lighthouse => "Lighthouse"
  | lodestar => "Lodestar"
  | nimbus => "Nimbus"
  | prysm => "Prysm"
  | teku => "Teku"
  | unknown => "Unknown"

def isKnown (client : ClientType) : Bool := client != unknown

/-- Folds the ASCII capitals to small letters and leaves every other character alone: `Char.toLower`
changes `A` to `Z` only, so letters beyond ASCII stay apart from the ASCII ones. -/
def foldCase (text : List Char) : List Char := text.map Char.toLower

/-- Reads a name in any ASCII case; nothing is trimmed. -/
def parse? (text : String) : Option ClientType :=
  all.find? fun client => foldCase client.name.toList == foldCase text.toList

/-- Reads a stored name: only the exact spelling is taken. -/
def ofName? (text : String) : Option ClientType := Naming.find? name all text

/-- The part of an agent string that names the client: all before the first `/`, or everything. -/
def agentName (agent : String) : String := String.ofList (agent.toList.takeWhile (· != '/'))

def ofAgent (agent : String) : ClientType := (parse? (agentName agent)).getD unknown

end ClientType

/-- The identity a peer reported, and what it was classified as. -/
structure ClientIdentity where
  agent : String
  clientType : ClientType
deriving DecidableEq, Repr

def ClientIdentity.ofAgent (agent : String) : ClientIdentity := ⟨agent, ClientType.ofAgent agent⟩

section

variable (agent : String)

@[simp] theorem ClientIdentity.agent_ofAgent : (ofAgent agent).agent = agent := rfl

@[simp] theorem ClientIdentity.clientType_ofAgent :
    (ofAgent agent).clientType = ClientType.ofAgent agent := by
  dsimp only [ofAgent]

end

/-- A peer's identity, unset until the first identity is kept. -/
structure IdentitySlot where
  kept : Option ClientIdentity := none
deriving DecidableEq, Repr

namespace IdentitySlot

def isResolved (slot : IdentitySlot) : Bool := slot.kept.isSome

def agent? (slot : IdentitySlot) : Option String := slot.kept.map ClientIdentity.agent

def clientType (slot : IdentitySlot) : ClientType :=
  (slot.kept.map ClientIdentity.clientType).getD .unknown

/-- Offers an identity. The slot keeps the first one; the answer is the one kept. -/
def resolve (slot : IdentitySlot) (identity : ClientIdentity) : ClientIdentity × IdentitySlot :=
  match slot.kept with
  | some earlier => (earlier, slot)
  | none => (identity, { kept := some identity })

end IdentitySlot

end PeerLink
