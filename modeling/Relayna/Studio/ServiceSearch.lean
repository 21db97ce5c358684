import Relayna.Foundation.Descending
import Relayna.Foundation.Keyed
import Relayna.Foundation.Like
import Relayna.Foundation.Python
import Relayna.Studio.SearchCursors

/-!
# Service search

A query is broken into terms. Candidates come from the store, term by term: Redis keeps a set of
services for every prefix of a token, PostgreSQL compares the term with four columns. A candidate
is found when one of its fields has every term as a prefix of one of its tokens.

`Store` is what the search reads of either store. Texts of a filter hold no NUL, which PostgreSQL
refuses, and the texts of a document fit their columns.
-/
namespace Relayna.Studio.ServiceSearch

open Python Contracts Search

/-- `[a-z0-9]`. -/
def tokenChar (ch : Char) : Bool := ('a' ≤ ch && ch ≤ 'z') || ('0' ≤ ch && ch ≤ '9')

/-- `str.lower`, and `lower` of the database. -/
structure Builtins where
  lower : String → String
  lower_token : ∀ token : String, token.toList.all tokenChar = true → lower token = token
  dbLower : String → String

structure ServiceSearchDocument where
  serviceId : String
  name : String
  environment : String
  tags : List String
  status : String
  healthStatus : Option String
  baseUrl : String
  deriving DecidableEq, Repr

/-! ## Tokens -/

/-- `_TOKEN_RE.finditer`: the longest runs of such characters. -/
def runs (cs : List Char) : List (List Char) := (cs.splitOnP (!tokenChar ·)).filter (· ≠ [])

section Tokens

variable (c : Builtins)

def normalizeText (value : Option String) : String := value.elim "" fun v => c.lower (strip v)

def tokenize (value : Option String) : List String :=
  (runs (normalizeText c value).toList).map String.ofList

def buildPrefixTokens (value : String) : List String :=
  (tokenize c (some value)).flatMap fun token => token.toList.inits.tail.map String.ofList

def serviceTokens (d : ServiceSearchDocument) : List String :=
  ([d.serviceId, d.name, d.environment] ++ d.tags).flatMap (buildPrefixTokens c)

/-- The fields that are searched, with their texts. -/
def ServiceSearchDocument.fieldValues (d : ServiceSearchDocument) : List (String × List String) :=
  [("service_id", [d.serviceId]), ("name", [d.name]), ("environment", [d.environment]),
    ("tags", d.tags)]

def matchedServiceFields (d : ServiceSearchDocument) (queryTerms : List String) : List String :=
  (d.fieldValues.filter fun field =>
    queryTerms.all fun term => term ∈ field.2.flatMap (buildPrefixTokens c)).map (·.1)

end Tokens

inductive Field
  | environment | status | health | tag
  deriving DecidableEq, Repr

/-- The values that a document is found under. -/
def ServiceSearchDocument.values (d : ServiceSearchDocument) : Field → List String
  | .environment => [d.environment]
  | .status => [d.status]
  | .health => (d.healthStatus.filter (· ≠ "")).toList
  | .tag => d.tags

/-! ## Redis -/

inductive Key
  | all
  | filter (field : Field) (value : String)
  | token (token : String)
  deriving DecidableEq, Repr

structure RedisStudioSearchStore where
  docs : String → Option ServiceSearchDocument := fun _ => none
  sets : Key → List String := fun _ => []

namespace RedisStudioSearchStore

variable (c : Builtins) (s : RedisStudioSearchStore)

def sadd (serviceId : String) (key : Key) : RedisStudioSearchStore :=
  { s with
    sets := Function.update s.sets key
      (if serviceId ∈ s.sets key then s.sets key else s.sets key ++ [serviceId]) }

def srem (serviceId : String) (key : Key) : RedisStudioSearchStore :=
  { s with sets := Function.update s.sets key ((s.sets key).filter (· ≠ serviceId)) }

/-- The sets of a document, but for the set of all. -/
def indexKeys (d : ServiceSearchDocument) : List Key :=
  ([Field.environment, .status, .health, .tag].flatMap fun field =>
    (d.values field).map (Key.filter field)) ++ (serviceTokens c d).map Key.token

def removeServiceIndexes (d : ServiceSearchDocument) : RedisStudioSearchStore :=
  (indexKeys c d).foldl (·.srem d.serviceId) s

/-- The document that was stored before is taken out of its sets. -/
def withoutIndexes (serviceId : String) : RedisStudioSearchStore :=
  (s.docs serviceId).elim s (s.removeServiceIndexes c)

def setServiceDocument (d : ServiceSearchDocument) : RedisStudioSearchStore :=
  let s := s.withoutIndexes c d.serviceId
  (Key.all :: indexKeys c d).foldl (·.sadd d.serviceId)
    { s with docs := Function.update s.docs d.serviceId (some d) }

def deleteServiceDocument (serviceId : String) : RedisStudioSearchStore :=
  let s := s.withoutIndexes c serviceId
  ({ s with docs := Function.update s.docs serviceId none }).srem serviceId .all

end RedisStudioSearchStore

/-! ## PostgreSQL -/

structure PostgresStudioSearchStore where
  rows : List ServiceSearchDocument := []

namespace PostgresStudioSearchStore

variable (c : Builtins) (s : PostgresStudioSearchStore)

/-- `INSERT ... ON CONFLICT DO UPDATE`. -/
def setServiceDocument (d : ServiceSearchDocument) : PostgresStudioSearchStore :=
  ⟨Keyed.put (·.serviceId) d s.rows⟩

def deleteServiceDocument (serviceId : String) : PostgresStudioSearchStore :=
  ⟨s.rows.filter (·.serviceId ≠ serviceId)⟩

def serviceIds (predicate : ServiceSearchDocument → Bool) : List String :=
  (s.rows.filter predicate).map (·.serviceId)

def listServiceDocumentIdsForFilter (field : Field) (value : String) : List String :=
  s.serviceIds fun d =>
    match field with
    | .environment => d.environment = value
    | .status => d.status = value
    | .health => d.healthStatus = some value
    | .tag => value ∈ d.tags

/-- The columns that a term is compared with. -/
def columns (d : ServiceSearchDocument) : List String :=
  [d.name, d.serviceId, d.environment, d.baseUrl]

def listServiceDocumentIdsForToken (token : String) : List String :=
  s.serviceIds fun d => (columns d).any fun column =>
    Like.like (Like.anywhere (c.lower token).toList) (c.dbLower column).toList

end PostgresStudioSearchStore

/-! ## Search -/

/-- What a search reads. -/
structure Store where
  documentIds : List String
  idsForFilter : Field → String → List String
  idsForToken : String → List String
  document : String → Option ServiceSearchDocument

def RedisStudioSearchStore.store (s : RedisStudioSearchStore) : Store where
  documentIds := s.sets .all
  idsForFilter field value := s.sets (.filter field value)
  idsForToken token := s.sets (.token token)
  document := s.docs

def PostgresStudioSearchStore.store (c : Builtins) (s : PostgresStudioSearchStore) : Store where
  documentIds := s.serviceIds fun _ => true
  idsForFilter := s.listServiceDocumentIdsForFilter
  idsForToken := s.listServiceDocumentIdsForToken c
  document serviceId := Keyed.get? (·.serviceId) serviceId s.rows

structure ServiceSearchQuery where
  query : Option String
  environment : Option String
  status : Option String
  health : Option String
  tag : Option String
  limit : Int

/-- `_normalize_optional_string`. -/
def normalizeOptionalString (value : Option String) : Option String :=
  (value.map strip).filter (· ≠ "")

def ServiceSearchQuery.filters (q : ServiceSearchQuery) : List (Field × String) :=
  [(Field.environment, q.environment), (.status, q.status), (.health, q.health),
    (.tag, q.tag)].filterMap fun f => (normalizeOptionalString f.2).map (f.1, ·)

structure ServiceSearchItem where
  document : ServiceSearchDocument
  matchedFields : List String
  deriving DecidableEq, Repr

section Search

variable (c : Builtins) (store : Store) (q : ServiceSearchQuery)

/-- The ids in the set of every filter, and all of them when there is no filter. -/
def filteredIds : List String :=
  match q.filters.map fun f => store.idsForFilter f.1 f.2 with
  | [] => store.documentIds
  | first :: more => first.filter fun id => more.all fun ids => id ∈ ids

def candidateIds : List String :=
  (tokenize c q.query).foldl (fun ids term => ids.filter (· ∈ store.idsForToken term))
    (filteredIds store q)

def itemOf (d : ServiceSearchDocument) : Option ServiceSearchItem :=
  let terms := tokenize c q.query
  if terms = [] then some ⟨d, []⟩
  else if matchedServiceFields c d terms = [] then none
  else some ⟨d, matchedServiceFields c d terms⟩

/-- By `(item.name.lower(), item.service_id)`. -/
def byName (a b : ServiceSearchItem) : Ordering :=
  compareLex (compareOn fun x : ServiceSearchItem => c.lower x.document.name)
    (compareOn fun x => x.document.serviceId) a b

/-- The items that are found, the least first. -/
def found : List ServiceSearchItem :=
  Descending.sort (fun a b => byName c b a)
    ((candidateIds c store q).filterMap fun id => (store.document id).bind (itemOf c q))

def position (item : ServiceSearchItem) : Fields String :=
  [("name", c.lower item.document.name), ("service_id", item.document.serviceId)]

/-- `none` is a `ValueError`. -/
def searchServices (codec : CursorCodec) (cursor : Option String) :
    Option (List ServiceSearchItem × Option String) :=
  codec.paginate (position c) (found c store q) q.limit cursor

end Search

/-! ## Stores that were given the same documents -/

inductive Call
  | set (d : ServiceSearchDocument)
  | delete (serviceId : String)

def RedisStudioSearchStore.call (c : Builtins) (s : RedisStudioSearchStore) :
    Call → RedisStudioSearchStore
  | .set d => s.setServiceDocument c d
  | .delete serviceId => s.deleteServiceDocument c serviceId

def PostgresStudioSearchStore.call (s : PostgresStudioSearchStore) :
    Call → PostgresStudioSearchStore
  | .set d => s.setServiceDocument d
  | .delete serviceId => s.deleteServiceDocument serviceId

def redisAfter (c : Builtins) (calls : List Call) : RedisStudioSearchStore :=
  calls.foldl (RedisStudioSearchStore.call c) {}

def postgresAfter (calls : List Call) : PostgresStudioSearchStore :=
  calls.foldl PostgresStudioSearchStore.call {}

end Relayna.Studio.ServiceSearch
