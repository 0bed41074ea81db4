-- Everything that the gateway asks of the search engine, the database and the job queue,
-- and the type of what each of them answers. A call is answered, or it fails with an
-- outage.
import TenantSearch.Document.Definition
import TenantSearch.Document.Table
import TenantSearch.Index.Descriptor
import TenantSearch.Jobs.QueueAddress

namespace TenantSearch

/-- A call to the search engine. -/
inductive EngineCall where
  | connect (url key timeout : Json)
  | search (indices : List String) (arguments : Fields)
  | put (index : String) (id : Json) (document : Fields)
  | remove (index : String) (id : Json)
  | hasIndex (index : String)
  | mapping (index : String)
  | create (descriptor : IndexDescriptor)
  | drop (index : String)
  | health
  | close

/-- What the search engine answers: a raw response, whether there is an index, its mappings, or the
state of the cluster. -/
def EngineCall.Reply : EngineCall → Type
  | .search _ _ => Json
  | .hasIndex _ => Bool
  | .mapping _ => Json
  | .health => Json
  | _ => Unit

/-- The job that fills an index again: it pushes every record of an entity that was last pushed
before the cutoff. -/
structure BackfillJob where
  solutionId : Json
  entityName : String
  cutoff : Timestamp

/-- A call to the job queue. -/
inductive QueueCall where
  | connect (address : QueueAddress)
  | enqueue (job : BackfillJob)
  | close

/-- A call to the database. -/
inductive DatabaseCall where
  | among (ids : Json)
  | page (p : StalePage)
  | staleSolutions (cutoff : Option Timestamp)
  | lookUp (id : Json)
  | commit (found : Option Record) (document : Fields) (stamp : Option Timestamp)
  | definitions (solutionId entityName entityType : Json)
  | ping

/-- What the database answers: rows, solutions, the row of an identifier, a document as saved, or
definitions. -/
def DatabaseCall.Reply : DatabaseCall → Type
  | .among _ => List Record
  | .page _ => List Record
  | .staleSolutions _ => List String
  | .lookUp _ => Option Record
  | .commit _ _ _ => Fields
  | .definitions _ _ _ => List EntityDefinition
  | .ping => Unit

/-- A call to anything outside. -/
inductive Call where
  | engine (c : EngineCall)
  | queue (c : QueueCall)
  | database (c : DatabaseCall)

def Call.Reply : Call → Type
  | .engine c => c.Reply
  | .queue _ => Unit
  | .database c => c.Reply

/-- Whether outages of a call can be planned: a connection is opened, and that of the queue closed,
without fail. -/
def Call.mayFail : Call → Bool
  | .engine (.connect ..) => false
  | .queue (.connect _) => false
  | .queue .close => false
  | _ => true

/-- The name of a call, under which its outages are planned. -/
def Call.name : Call → String
  | .engine (.connect ..) => "es.open"
  | .engine (.search ..) => "search"
  | .engine (.put ..) => "index"
  | .engine (.remove ..) => "delete"
  | .engine (.hasIndex _) => "indices.exists"
  | .engine (.mapping _) => "indices.get_mapping"
  | .engine (.create _) => "indices.create"
  | .engine (.drop _) => "indices.delete"
  | .engine .health => "cluster.health"
  | .engine .close => "close"
  | .queue (.connect _) => "pool.open"
  | .queue (.enqueue _) => "enqueue_job"
  | .queue .close => "pool.close"
  | .database (.commit ..) => "db.commit"
  | .database _ => "db"

end TenantSearch
