import TypeCatalog.Description
import TypeCatalog.Proofs.Access.BlanketRules
import TypeCatalog.Proofs.Access.Expansion
import TypeCatalog.Proofs.Access.ForeignFields
import TypeCatalog.Proofs.Access.GrantsOnly
import TypeCatalog.Proofs.Access.UnknownRole
import TypeCatalog.Proofs.Description
import TypeCatalog.Proofs.Draft.DeclarationOrder
import TypeCatalog.Proofs.Draft.Derivation
import TypeCatalog.Proofs.Draft.FieldConstraints
import TypeCatalog.Proofs.Draft.Growth
import TypeCatalog.Proofs.Draft.Layout
import TypeCatalog.Proofs.Draft.Lengths
import TypeCatalog.Proofs.Draft.Mirror
import TypeCatalog.Proofs.Draft.NameClash
import TypeCatalog.Proofs.Draft.Names
import TypeCatalog.Proofs.Draft.Overriding
import TypeCatalog.Proofs.Draft.Refusal
import TypeCatalog.Proofs.Draft.Rules
import TypeCatalog.Proofs.Draft.Typing
import TypeCatalog.Proofs.Draft.Uniques
import TypeCatalog.Proofs.Draft.Validation
import TypeCatalog.Proofs.Draft.Views
import TypeCatalog.Proofs.NameText
import TypeCatalog.Proofs.Packages
import TypeCatalog.Proofs.Schedule.Acceptance
import TypeCatalog.Proofs.Storages
import TypeCatalog.Proofs.Workspace.Descriptors
import TypeCatalog.Proofs.Workspace.Replacement
import TypeCatalog.Proofs.Workspace.Sight
import TypeCatalog.Proofs.Workspace.Visibility
