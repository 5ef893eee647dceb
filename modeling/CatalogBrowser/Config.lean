import CatalogBrowser.ConceptTree.Options
import CatalogBrowser.Error
import CatalogBrowser.Lineage.Basic
import CatalogBrowser.Text.Blank
import CatalogBrowser.Yaml.Reader

/-!
The configuration, read from YAML.

Every section is optional, and every key that is missing takes its standard value.  Unknown keys
are ignored.
-/

namespace CatalogBrowser

inductive LogLevel where
  | off
  | trace
  | debug
  | info
  | warn
  | error
  deriving Repr, DecidableEq

namespace LogLevel

def all : List LogLevel := [.off, .trace, .debug, .info, .warn, .error]

def name : LogLevel → String
  | .off => "off"
  | .trace => "trace"
  | .debug => "debug"
  | .info => "info"
  | .warn => "warn"
  | .error => "error"

def ofYaml? (yaml : Yaml) : Option LogLevel :=
  yaml.choice?.bind fun text => all.find? fun level => level.name = text

end LogLevel

inductive LogFormat where
  | compact
  | pretty
  | json
  deriving Repr, DecidableEq

namespace LogFormat

def all : List LogFormat := [.compact, .pretty, .json]

def name : LogFormat → String
  | .compact => "compact"
  | .pretty => "pretty"
  | .json => "json"

def ofYaml? (yaml : Yaml) : Option LogFormat :=
  yaml.choice?.bind fun text => all.find? fun format => format.name = text

end LogFormat

structure LoggerConfig where
  enable : Bool := true
  level : LogLevel := .info
  format : LogFormat := .compact
  deriving Repr, DecidableEq

def LoggerConfig.ofYaml? (yaml : Yaml) : Option LoggerConfig := do
  let standard : LoggerConfig := {}
  let record ← yaml.record? ["enable", "level", "format"]
  let enable ← Yaml.withDefault? record "enable" standard.enable Yaml.bool?
  let level ← Yaml.withDefault? record "level" standard.level LogLevel.ofYaml?
  let format ← Yaml.withDefault? record "format" standard.format LogFormat.ofYaml?
  some { enable, level, format }

structure BackendConfig where
  baseUrl : String := "http://localhost:8000"
  timeoutSeconds : Nat := 30
  deriving Repr, DecidableEq

def BackendConfig.ofYaml? (yaml : Yaml) : Option BackendConfig := do
  let standard : BackendConfig := {}
  let record ← yaml.record? ["base_url", "timeout_secs"]
  let baseUrl ← Yaml.withDefault? record "base_url" standard.baseUrl Yaml.text?
  let timeoutSeconds ← Yaml.withDefault? record "timeout_secs" standard.timeoutSeconds Yaml.nat?
  some { baseUrl, timeoutSeconds }

structure PollingConfig where
  intervalMs : Nat := 5000
  deriving Repr, DecidableEq

namespace PollingConfig

def ofYaml? (yaml : Yaml) : Option PollingConfig := do
  let standard : PollingConfig := {}
  let record ← yaml.record? ["interval_ms"]
  let intervalMs ← Yaml.withDefault? record "interval_ms" standard.intervalMs Yaml.nat?
  some { intervalMs }

def interval (polling : PollingConfig) : Nat := max polling.intervalMs 1

end PollingConfig

def DisplayOptions.ofYaml? (yaml : Yaml) : Option DisplayOptions := do
  let standard : DisplayOptions := {}
  let record ← yaml.record? DisplayOptions.memberNames
  let includeProperties ←
    Yaml.withDefault? record "include_properties" standard.includeProperties Yaml.bool?
  let groupBySource ← Yaml.withDefault? record "group_by_source" standard.groupBySource Yaml.bool?
  let groupByDomain ← Yaml.withDefault? record "group_by_domain" standard.groupByDomain Yaml.bool?
  some { includeProperties, groupBySource, groupByDomain }

namespace Geometry

def ofYaml? (yaml : Yaml) : Option Geometry := do
  let standard : Geometry := {}
  let record ← yaml.record? memberNames
  let centerX ← Yaml.withDefault? record "center_x" standard.centerX Yaml.real?
  let centerY ← Yaml.withDefault? record "center_y" standard.centerY Yaml.real?
  let horizontalSpacing ←
    Yaml.withDefault? record "horizontal_spacing" standard.horizontalSpacing Yaml.real?
  let verticalSpacing ←
    Yaml.withDefault? record "vertical_spacing" standard.verticalSpacing Yaml.real?
  let siblingOffset ← Yaml.withDefault? record "sibling_offset" standard.siblingOffset Yaml.real?
  let sideOffset ← Yaml.withDefault? record "side_offset" standard.sideOffset Yaml.real?
  some { centerX, centerY, horizontalSpacing, verticalSpacing, siblingOffset, sideOffset }

/-- Equal as numbers, so that a layout with a NaN equals no other. -/
def same (left right : Geometry) : Bool :=
  left.centerX == right.centerX && left.centerY == right.centerY &&
    left.horizontalSpacing == right.horizontalSpacing &&
    left.verticalSpacing == right.verticalSpacing &&
    left.siblingOffset == right.siblingOffset && left.sideOffset == right.sideOffset

end Geometry

structure Config where
  logger : LoggerConfig := {}
  backend : BackendConfig := {}
  tree : DisplayOptions := {}
  lineage : Geometry := {}
  polling : PollingConfig := {}

namespace Config

def ofYaml? (yaml : Yaml) : Option Config := do
  let record ← yaml.record? ["logger", "backend", "tree", "lineage", "polling"]
  let logger ← Yaml.withDefault? record "logger" {} LoggerConfig.ofYaml?
  let backend ← Yaml.withDefault? record "backend" {} BackendConfig.ofYaml?
  let tree ← Yaml.withDefault? record "tree" {} DisplayOptions.ofYaml?
  let lineage ← Yaml.withDefault? record "lineage" {} Geometry.ofYaml?
  let polling ← Yaml.withDefault? record "polling" {} PollingConfig.ofYaml?
  some { logger, backend, tree, lineage, polling }

def ofText (text : String) : Except Error Config :=
  if Text.isBlankText text then .ok {}
  else
    match (Yaml.read text).bind ofYaml? with
    | some config => .ok config
    | none => .error .yaml

def same (left right : Config) : Bool :=
  left.logger = right.logger && left.backend = right.backend && left.tree = right.tree &&
    left.lineage.same right.lineage && left.polling = right.polling

end Config

end CatalogBrowser
