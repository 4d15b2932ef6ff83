import NoiseFilter.Bytes.Buffer
import NoiseFilter.Engine.Basic

/-!
# The transport

A transport delivers packets into a buffer of the reader and forwards packets that a writer hands to
it. A delivery is a length and attributes that travel beside the packet; the bytes are in the buffer.
The length is the transport's word and may exceed the buffer.
-/

namespace NoiseFilter

/-- Values that travel beside a packet. -/
abbrev Attributes := List (String × String)

/-- **Why a transport failed**: it is closed, its device failed, or anything else. -/
inductive TransportError
  | closed
  | io (text : String)
  | other (why : Failure)
deriving DecidableEq, Repr

namespace TransportError

/-- The message of a transport error; of any other failure, the outermost account. -/
def message : TransportError → String
  | closed => "transport closed"
  | io text => "transport I/O error: " ++ text
  | other why => why.message

/-- A transport error as a failure with its causes. -/
def toFailure : TransportError → Failure
  | closed => .root closed.message
  | io text => ⟨(io text).message, [text]⟩
  | other why => why

end TransportError

/-- A packet that was delivered: how long it is said to be, and what travels beside it. -/
structure Delivery where
  length : Nat
  attributes : Attributes
deriving DecidableEq, Repr

/-- What a transport answers to a read. -/
abbrev Arrival := Except TransportError Delivery

/-- A packet on its way out. -/
structure Outgoing where
  sequence : UInt16
  ssrc : UInt32
  payload : Bytes
  attributes : Attributes
deriving DecidableEq, Repr

/-! ### Streams -/

/-- A header extension that both sides agreed on. -/
structure ExtensionOffer where
  id : UInt8
  uri : String
deriving DecidableEq, Repr

/-- What is known of a stream when it is bound. -/
structure StreamInfo where
  ssrc : UInt32
  payloadType : UInt8
  extensions : List ExtensionOffer
deriving DecidableEq, Repr

/-- The id agreed on for an extension: that of the first offer with its name. -/
def StreamInfo.extensionId? (info : StreamInfo) (uri : String) : Option UInt8 :=
  (info.extensions.find? fun offer => offer.uri == uri).map ExtensionOffer.id

end NoiseFilter
