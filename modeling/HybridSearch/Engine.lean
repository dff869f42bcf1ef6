import HybridSearch.Address
import HybridSearch.Document
import HybridSearch.Query
import HybridSearch.Wire.Reply

/-!
# Engines

What keeps indexes and documents and answers searches, seen from outside; and why it may fail.
-/
namespace HybridSearch

inductive ConnectionFault where
  | notConfigured
  | address (fault : AddressFault)
  deriving DecidableEq

def ConnectionFault.message : ConnectionFault → String
  | notConfigured => "redis_url not configured"
  | address fault => fault.message

inductive CommandFault where
  | nameless
  | indexExists
  | unknownIndex
  | noSuchIndex (name : String)
  | holdsJson (key : String)
  | otherStorage (key : String)
  | server (error : ServerError)
  | disconnected
  | incompatible (wanted : String) (found : Reply)
  | notUtf8

def CommandFault.message : CommandFault → String
  | nameless => "FT.CREATE without index name"
  | indexExists => "Index already exists"
  | unknownIndex => "Unknown Index name"
  | noSuchIndex name => name ++ ": no such index"
  | holdsJson key => "WRONGTYPE " ++ key ++ " holds a JSON document"
  | otherStorage key => "WRONGTYPE " ++ key ++ " holds a different storage type"
  | server error => error.message
  | disconnected => "broken pipe"
  | incompatible wanted found =>
    "Response was of incompatible type - TypeError: \"Response type not " ++ wanted ++
      " compatible.\" (response was " ++ found.description ++ ")"
  | notUtf8 => "Cannot convert from UTF-8- TypeError"

inductive ReplyFault where
  | expectedText (found : Reply)
  | expectedArray (found : Reply)
  | expectedCount (found : Option Reply)
  | oddDocument (id : String)
  | attributeValue (found : Reply)
  | oddAttributes (key : String)
  | hashValue (found : Reply)
  | expectedAttributes (key : String) (found : Reply)
  | invalidJson (key : String)

def ReplyFault.message : ReplyFault → String
  | expectedText found => "expected a string, got " ++ found.description
  | expectedArray found => "expected an array reply, got " ++ found.description
  | expectedCount none => "expected a result count, got None"
  | expectedCount (some found) =>
    "expected a result count, got Some(" ++ found.description ++ ")"
  | oddDocument id => "odd field list for document '" ++ id ++ "'"
  | attributeValue found => "unsupported field value " ++ found.description
  | oddAttributes key => "odd field list for '" ++ key ++ "'"
  | hashValue found => "unsupported hash value " ++ found.description
  | expectedAttributes key found =>
    "expected a field list for '" ++ key ++ "', got " ++ found.description
  | invalidJson key => "invalid JSON for '" ++ key ++ "'"

inductive EngineError where
  | connection (fault : ConnectionFault)
  | command (fault : CommandFault)
  | reply (fault : ReplyFault)
  | invalidRecord (position : Nat) (fault : RecordFault)
  | query (error : QueryError)

def EngineError.message : EngineError → String
  | connection fault => "Connection error: " ++ fault.message
  | command fault => "Search engine error: " ++ fault.message
  | reply fault => "Unexpected reply: " ++ fault.message
  | invalidRecord position fault =>
    "Invalid record at position " ++ toString position ++ ": " ++ fault.message
  | query error => error.message

/-- What an engine can be asked, in a monad that holds its state. -/
class Engine (m : Type → Type) where
  /-- Creates an index from its creation arguments, the first of which is its name. -/
  createIndex (arguments : List String) : m (Except EngineError Unit)
  dropIndex (name : String) (dropDocuments : Bool) : m (Except EngineError Unit)
  indexExists (name : String) : m (Except EngineError Bool)
  search (index : String) (query : CompiledQuery) : m (Except EngineError SearchResults)
  /-- Writes documents: attributes into the document that is there, a JSON value in its place. -/
  load (documents : List Document) : m (Except EngineError Unit)
  fetch (key : String) (storage : Storage) : m (Except EngineError (Option Row))

end HybridSearch
