import DocStore.Repository.Basic

/-! # Datasources

A datasource knows connectors by name, each with a handle of its own kind, and remembers which
connector serves which model. -/

namespace DocStore

/-- A **connector**: a named handle to a database. -/
structure Connector (δ : Type) where
  /-- The name. -/
  name : String
  /-- The database. -/
  database : String
  /-- The handle. -/
  handle : δ

/-- **A datasource** of connectors and routes. -/
structure Datasource (δ : Type) where
  /-- The connectors by name. -/
  connectors : Entries (Connector δ) := []
  /-- The names of the connectors of the models. -/
  routes : Entries String := []

namespace Datasource

variable {δ : Type}

/-- Add a connector; one of the same name is replaced. -/
def addConnector (source : Datasource δ) (connector : Connector δ) : Datasource δ :=
  { source with connectors := Entries.insert source.connectors connector.name connector }

/-- The connector of a name. -/
def connector (source : Datasource δ) (name : String) : Except Error (Connector δ) :=
  match Entries.get? source.connectors name with
  | some connector => .ok connector
  | none => .error (.connectorNotFound name)

/-- Route a model to a connector, which has to be there. -/
def route (source : Datasource δ) (model connector : String) :
    Except Error (Connector δ × Datasource δ) :=
  match source.connector connector with
  | .error error => .error error
  | .ok found => .ok (found, { source with routes := Entries.insert source.routes model connector })

/-- Route a model to the connector that it names. -/
def register {α : Type} (source : Datasource δ) (model : Model α) :
    Except Error (Connector δ × Datasource δ) :=
  source.route model.name model.connector

/-- The connector that a model is routed to. -/
def connectorOf (source : Datasource δ) (model : String) : Except Error (Connector δ) :=
  match Entries.get? source.routes model with
  | some name => source.connector name
  | none => .error (.modelNotRegistered model)

/-- Route every registered model whose connector is there, and say how many there were. -/
def registerAll (source : Datasource δ) : List Registration → Nat × Datasource δ
  | [] => (0, source)
  | registration :: rest =>
    match source.route registration.model registration.connector with
    | .ok (_, source) =>
      let (count, source) := source.registerAll rest
      (count + 1, source)
    | .error _ => source.registerAll rest

/-- The repository of a model, which is routed to its connector. A model without a schema is
routed all the same. -/
def repository {α : Type} (source : Datasource δ) (model : Model α)
    (options : RepositoryOptions) :
    Except Error (Connector δ × Repository α) × Datasource δ :=
  match source.register model with
  | .error error => (.error error, source)
  | .ok (connector, source) =>
    ((Repository.build model options).map fun repository => (connector, repository), source)

end Datasource

end DocStore
