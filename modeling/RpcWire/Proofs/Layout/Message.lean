import RpcWire.Message
import RpcWire.Proofs.Layout

namespace RpcWire

/-! # Layouts of messages

The layout of each value that a message is made of, field by field. None of
them says how a value is written or read. -/

/-! ## Credentials -/

namespace UnixIdentity

def layout (identity : UnixIdentity) : Layout :=
  Layout.word identity.stamp ++ (Layout.counted identity.machine ++
    (Layout.word identity.uid ++ (Layout.word identity.gid ++
      Layout.words identity.gids)))

@[simp] theorem length_layout (identity : UnixIdentity) :
    identity.layout.length = identity.size := by
  simp only [layout, List.length_append, Layout.length_word, Layout.length_counted,
    Layout.length_words, size]
  omega

/-- The length of the name and the number of groups have words. -/
structure Encodable (identity : UnixIdentity) : Prop where
  machine : identity.machine.length < UInt32.size
  gids : identity.gids.count < UInt32.size

/-- A body whose length has a word has no part that is too long. -/
theorem encodable_of_size_lt {identity : UnixIdentity} (short : identity.size < UInt32.size) :
    identity.Encodable := by
  unfold size countedSize at short
  constructor <;> omega

end UnixIdentity

namespace Credential

def bodyLayout : Credential → Layout
  | sys identity => identity.layout
  | none body | short body | other _ body _ => Layout.data body

def layout (credential : Credential) : Layout :=
  Layout.word credential.flavor ++ (Layout.word (UInt32.ofNat credential.bodySize) ++
    (credential.bodyLayout ++ Layout.padding credential.bodySize))

@[simp] theorem length_bodyLayout (credential : Credential) :
    credential.bodyLayout.length = credential.bodySize := by
  cases credential with
  | sys identity => exact identity.length_layout
  | none body => exact Layout.length_data body
  | short body => exact Layout.length_data body
  | other flavor body plain => exact Layout.length_data body

@[simp] theorem length_layout (credential : Credential) :
    credential.layout.length = credential.size := by
  simp only [layout, List.length_append, Layout.length_word, length_bodyLayout,
    Layout.length_padding, size, countedSize]
  omega

/-- A raw body is laid out as counted data. -/
theorem layout_eq_counted (credential : Credential)
    (raw : credential.bodyLayout = Layout.data credential.body)
    (sameSize : credential.bodySize = credential.body.length) :
    credential.layout = Layout.word credential.flavor ++ Layout.counted credential.body := by
  simp only [layout, raw, sameSize, Layout.counted, List.append_assoc]

/-- The length of the body has a word. -/
def Encodable (credential : Credential) : Prop := credential.bodySize < UInt32.size

instance (credential : Credential) : Decidable credential.Encodable :=
  inferInstanceAs (Decidable (credential.bodySize < UInt32.size))

theorem bodySize_eq {strict : Bool} {credential : Credential} {body : Bytes}
    (fills : credential.bodyLayout.Matches strict body) : credential.bodySize = body.length :=
  credential.length_bodyLayout.symm.trans fills.length_eq.symm

/-- A credential is its flavor and counted data in which the body fills its own
layout, with nothing left of it. -/
theorem matches_layout_iff {strict : Bool} {credential : Credential} {bytes : Bytes} :
    credential.Encodable ∧ credential.layout.Matches strict bytes ↔
      ∃ front body back, bytes = front ++ back ∧
        (Layout.word credential.flavor).Matches strict front ∧
        body.length < UInt32.size ∧ credential.bodyLayout.Matches strict body ∧
        (Layout.counted body).Matches strict back := by
  simp only [layout, Layout.counted, List.append_assoc, Layout.matches_append_iff]
  constructor
  · intro holds
    rcases holds with ⟨short, front, _, rfl, fillsFlavor, lengthBytes, _, rfl, fillsLength, body,
      padBytes, rfl, fills, fillsPad⟩
    rw [Encodable, bodySize_eq fills] at short
    rw [bodySize_eq fills] at fillsLength fillsPad
    exact ⟨front, body, _, rfl, fillsFlavor, short, fills, _, _, rfl, fillsLength, _, _, rfl,
      Layout.matches_data _, fillsPad⟩
  · intro holds
    rcases holds with ⟨front, body, _, rfl, fillsFlavor, short, fills, lengthBytes, _, rfl,
      fillsLength, _, padBytes, rfl, fillsBody, fillsPad⟩
    rcases Layout.matches_data_iff.mp fillsBody with rfl
    rw [← bodySize_eq fills] at short fillsLength fillsPad
    exact ⟨short, front, _, rfl, fillsFlavor, _, _, rfl, fillsLength, _, _, rfl, fills, fillsPad⟩

end Credential

/-! ## Calls and replies -/

def VersionRange.layout (range : VersionRange) : Layout :=
  Layout.word range.low ++ Layout.word range.high

namespace Call

def credentials (call : Call) : List Credential := [call.credential, call.verifier]

def layout (call : Call) : Layout :=
  Layout.word protocolVersion ++ (Layout.word call.program ++
    (Layout.word call.version ++ (Layout.word call.procedure ++
      (call.credential.layout ++ (call.verifier.layout ++ Layout.data call.arguments)))))

@[simp] theorem length_layout (call : Call) : call.layout.length = call.size := by
  simp only [layout, List.length_append, Layout.length_word, Credential.length_layout,
    Layout.length_data, size]
  omega

end Call

namespace Outcome

/-- What runs to the end of the message. -/
def tail? : Outcome → Option Bytes
  | success results => some results
  | _ => none

/-- What stands behind the tag. -/
def armLayout : Outcome → Layout
  | success results => Layout.data results
  | programMismatch versions => versions.layout
  | programUnavailable | procedureUnavailable | garbageArguments | systemError => []

def layout (outcome : Outcome) : Layout := Layout.tag outcome.kind ++ outcome.armLayout

@[simp] theorem length_layout (outcome : Outcome) : outcome.layout.length = outcome.size := by
  cases outcome <;> simp [layout, armLayout, size, VersionRange.layout]

end Outcome

namespace Rejection

def armLayout : Rejection → Layout
  | rpcMismatch versions => versions.layout
  | authError status => Layout.tag status

def layout (rejection : Rejection) : Layout :=
  Layout.tag rejection.kind ++ rejection.armLayout

@[simp] theorem length_layout (rejection : Rejection) :
    rejection.layout.length = rejection.size := by
  cases rejection <;> simp [layout, armLayout, size, VersionRange.layout]

end Rejection

namespace Reply

def credentials : Reply → List Credential
  | accepted verifier _ => [verifier]
  | denied _ => []

def tail? : Reply → Option Bytes
  | accepted _ outcome => outcome.tail?
  | denied _ => none

def armLayout : Reply → Layout
  | accepted verifier outcome => verifier.layout ++ outcome.layout
  | denied rejection => rejection.layout

def layout (reply : Reply) : Layout := Layout.tag reply.kind ++ reply.armLayout

@[simp] theorem length_layout (reply : Reply) : reply.layout.length = reply.size := by
  cases reply with
  | accepted verifier outcome =>
      simp only [layout, armLayout, List.length_append, Layout.length_tag,
        Credential.length_layout, Outcome.length_layout, size]
      omega
  | denied rejection => simp [layout, armLayout, size]

end Reply

/-! ## Messages -/

namespace Message

namespace Body

def credentials : Body → List Credential
  | call content => content.credentials
  | reply content => content.credentials

def tail? : Body → Option Bytes
  | call content => some content.arguments
  | reply content => content.tail?

def layout : Body → Layout
  | call content => content.layout
  | reply content => content.layout

@[simp] theorem length_layout (body : Body) : body.layout.length = body.size := by
  cases body with
  | call content => exact content.length_layout
  | reply content => exact content.length_layout

end Body

/-- The credentials and verifiers of a message. -/
def credentials (message : Message) : List Credential := message.body.credentials

/-- The arguments of a call or the results of a success. They have no length of
their own. -/
def tail? (message : Message) : Option Bytes := message.body.tail?

def layout (message : Message) : Layout :=
  Layout.word message.xid ++ (Layout.tag message.body.kind ++ message.body.layout)

@[simp] theorem length_layout (message : Message) :
    message.layout.length = message.size := by
  simp only [layout, List.length_append, Layout.length_word, Layout.length_tag,
    Body.length_layout, size]
  omega

/-- Every length in the message has a word. -/
def Encodable (message : Message) : Prop :=
  ∀ credential ∈ message.credentials, credential.Encodable

instance (message : Message) : Decidable message.Encodable :=
  inferInstanceAs (Decidable (∀ credential ∈ message.credentials, credential.Encodable))

/-- Whether the message has a byte of padding at this position. -/
def IsPadding (message : Message) (position : Nat) : Prop :=
  message.layout[position]? = some Cell.padding

instance (message : Message) (position : Nat) : Decidable (message.IsPadding position) :=
  inferInstanceAs (Decidable (message.layout[position]? = some Cell.padding))

/-- A call of an identity named `ab`, whose name is padded by two bytes. -/
example : (List.range 80).filter (fun position => decide (IsPadding
    { body := .call { credential := .sys { machine := [0x61, 0x62] } } } position)) =
    [42, 43] := by decide

end Message

end RpcWire
