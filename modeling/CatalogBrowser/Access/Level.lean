import CatalogBrowser.Json.Basic

/-!
Permission levels, from least to most privileged, and the features they are granted on.
-/

namespace CatalogBrowser

inductive AccessLevel where
  | noAccess
  | readOnly
  | readWrite
  | admin
  deriving Repr, DecidableEq

namespace AccessLevel

def all : List AccessLevel := [.noAccess, .readOnly, .readWrite, .admin]

def rank : AccessLevel → Nat
  | .noAccess => 0
  | .readOnly => 1
  | .readWrite => 2
  | .admin => 3

def name : AccessLevel → String
  | .noAccess => "none"
  | .readOnly => "read_only"
  | .readWrite => "read_write"
  | .admin => "admin"

def word : AccessLevel → String
  | .noAccess => "no"
  | .readOnly => "read-only"
  | .readWrite => "read/write"
  | .admin => "admin"

def ofName? (name : String) : Option AccessLevel := all.find? fun level => level.name = name

def ofJson? : Json → Option AccessLevel := Json.choice? ofName?

end AccessLevel

inductive Feature where
  | semanticModels
  | catalogCommander
  | trainingData
  | modelMonitoring
  deriving Repr, DecidableEq

namespace Feature

def all : List Feature := [.semanticModels, .catalogCommander, .trainingData, .modelMonitoring]

def name : Feature → String
  | .semanticModels => "semantic-models"
  | .catalogCommander => "catalog-commander"
  | .trainingData => "training-data"
  | .modelMonitoring => "model-monitoring"

def ofName? (name : String) : Option Feature := all.find? fun feature => feature.name = name

def ofJson? : Json → Option Feature := Json.choice? ofName?

end Feature

end CatalogBrowser
