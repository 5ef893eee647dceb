import CatalogBrowser.Access.Level
import CatalogBrowser.Access.Permissions
import CatalogBrowser.Backend.Call
import CatalogBrowser.Backend.Client
import CatalogBrowser.Backend.Exchange
import CatalogBrowser.Catalog.Commander
import CatalogBrowser.Catalog.Forest
import CatalogBrowser.Catalog.Node
import CatalogBrowser.Catalog.Path
import CatalogBrowser.Catalog.Session
import CatalogBrowser.Catalog.Tree
import CatalogBrowser.Catalog.Work
import CatalogBrowser.CommandLine.Arguments
import CatalogBrowser.CommandLine.Run
import CatalogBrowser.Concept.Basic
import CatalogBrowser.Concept.Document
import CatalogBrowser.Concept.Groups
import CatalogBrowser.Concept.Hierarchy
import CatalogBrowser.Concept.Json
import CatalogBrowser.ConceptTree.Ancestors
import CatalogBrowser.ConceptTree.Basic
import CatalogBrowser.ConceptTree.Links
import CatalogBrowser.ConceptTree.Node
import CatalogBrowser.ConceptTree.Options
import CatalogBrowser.ConceptTree.Search
import CatalogBrowser.ConceptTree.View
import CatalogBrowser.Config
import CatalogBrowser.Distinct
import CatalogBrowser.Error
import CatalogBrowser.Iri.Absolute
import CatalogBrowser.Iri.Basic
import CatalogBrowser.Iri.Datatype
import CatalogBrowser.Job
import CatalogBrowser.JobPoller.Basic
import CatalogBrowser.JobPoller.Watch
import CatalogBrowser.Json.Basic
import CatalogBrowser.Json.Printer
import CatalogBrowser.Json.Reader
import CatalogBrowser.Lineage.Basic
import CatalogBrowser.Lineage.Layout
import CatalogBrowser.Listing.Catalog
import CatalogBrowser.Listing.Job
import CatalogBrowser.Listing.Lineage
import CatalogBrowser.Listing.Style
import CatalogBrowser.Listing.Tree
import CatalogBrowser.Main
import CatalogBrowser.ModelsView
import CatalogBrowser.Notification
import CatalogBrowser.Number.Binary64
import CatalogBrowser.Number.Literal
import CatalogBrowser.Number.Shortest
import CatalogBrowser.Page
import CatalogBrowser.SemanticLink
import CatalogBrowser.Text.Blank
import CatalogBrowser.Text.CaseTable
import CatalogBrowser.Text.LowerCase
import CatalogBrowser.Text.Occurrence
import CatalogBrowser.Url.Basic
import CatalogBrowser.Url.Host
import CatalogBrowser.Url.Percent
import CatalogBrowser.Url.Punycode
import CatalogBrowser.Yaml.Basic
import CatalogBrowser.Yaml.Cursor
import CatalogBrowser.Yaml.Property
import CatalogBrowser.Yaml.Reader
import CatalogBrowser.Yaml.Scalar
import CatalogBrowser.Proofs.Catalog.Run
import CatalogBrowser.Proofs.Catalog.Steps
import CatalogBrowser.Proofs.Catalog.Transition
import CatalogBrowser.Proofs.Catalog.Marks
import CatalogBrowser.Proofs.ConceptTree.LinkTable
import CatalogBrowser.Proofs.ConceptTree.Construction
import CatalogBrowser.Proofs.ConceptTree.Drawing
import CatalogBrowser.Proofs.ConceptTree.Groups
import CatalogBrowser.Proofs.ConceptTree.Unfolding
import CatalogBrowser.Proofs.Catalog.Forest
import CatalogBrowser.Proofs.Catalog.Splicing
import CatalogBrowser.Proofs.Catalog.Growth
import CatalogBrowser.Proofs.Catalog.Settled
import CatalogBrowser.Proofs.Catalog.Rows
import CatalogBrowser.Proofs.Catalog.Expansion
import CatalogBrowser.Proofs.Catalog.Path
import CatalogBrowser.Proofs.Catalog.Listings
import CatalogBrowser.Proofs.Catalog.Projection
import CatalogBrowser.Proofs.Catalog.Renewal
import CatalogBrowser.Proofs.ConceptTree.Ancestry
import CatalogBrowser.Proofs.ConceptTree.Visibility
import CatalogBrowser.Proofs.ConceptTree.Regrouping
import CatalogBrowser.Proofs.FirstBy
import CatalogBrowser.Proofs.Concept.Flattening
import CatalogBrowser.Proofs.ConceptTree.Screening
import CatalogBrowser.Proofs.Lineage.Assembly
import CatalogBrowser.Proofs.Lineage.Arrangement
import CatalogBrowser.Proofs.Lineage.Relations
import CatalogBrowser.Proofs.ModelsView.Run
import CatalogBrowser.Proofs.ModelsView.Selection
import CatalogBrowser.Proofs.Lineage.WellFormed
import CatalogBrowser.Proofs.ModelsView.Clicks
import CatalogBrowser.Proofs.Page
import CatalogBrowser.Proofs.ConceptTree.Neighbourhood
import CatalogBrowser.Proofs.Lineage.SharedParents
import CatalogBrowser.Proofs.Lineage.PropertyParts
import CatalogBrowser.Proofs.JobPoller.Run
import CatalogBrowser.Proofs.JobPoller.Waiting
import CatalogBrowser.Proofs.JobPoller.Watch
import CatalogBrowser.Proofs.Json.Members
import CatalogBrowser.Proofs.Json.Printing
import CatalogBrowser.Proofs.RoundTrip
import CatalogBrowser.Proofs.Concept.Leniency
import CatalogBrowser.Proofs.Concept.Document
import CatalogBrowser.Proofs.ConceptTree.Levels
import CatalogBrowser.Proofs.ConceptTree.Symmetry
import CatalogBrowser.Proofs.Url.Decoding
import CatalogBrowser.Proofs.Url.Segments
import CatalogBrowser.Proofs.Backend.Addresses
import CatalogBrowser.Proofs.Catalog.Answers
import CatalogBrowser.Proofs.Commander.Run
import CatalogBrowser.Proofs.Commander.Panes
import CatalogBrowser.Proofs.Commander.Tasks
import CatalogBrowser.Proofs.Commander.Results
import CatalogBrowser.Proofs.Commander.Outcomes
import CatalogBrowser.Proofs.Text.Trimming
import CatalogBrowser.Proofs.Text.LowerCase
import CatalogBrowser.Proofs.ModelsView.Fallback
import CatalogBrowser.Proofs.ConceptTree.SourceLayer
import CatalogBrowser.Proofs.ConceptTree.Ids
import CatalogBrowser.Proofs.Iri.LocalName
import CatalogBrowser.Proofs.ConceptTree.Search
import CatalogBrowser.Proofs.Backend.Links
import CatalogBrowser.Proofs.Iri.Datatype
import CatalogBrowser.Proofs.Labels
