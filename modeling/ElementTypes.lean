import ElementTypes.Proofs.Record.WellFormed
import ElementTypes.Proofs.Session.Failure
import ElementTypes.Proofs.Session.Isolation
import ElementTypes.Proofs.Session.Reachable
import ElementTypes.Session.Basic
import ElementTypes.Proofs.Store.Layouts
import ElementTypes.Proofs.Store.Promote
import ElementTypes.Proofs.Scalar.Cast
import ElementTypes.Proofs.Store.Fold
import ElementTypes.Proofs.Session.Promotion
import ElementTypes.Proofs.Session.Acts
import ElementTypes.Proofs.Store.Extent
import ElementTypes.Proofs.Session.Contents
import ElementTypes.Proofs.Store.Intervals
import ElementTypes.Proofs.Store.Characters
import ElementTypes.Proofs.Store.Mismatch
import ElementTypes.Proofs.Store.Exclusive
import ElementTypes.Proofs.Session.Exclusive
import ElementTypes.Proofs.Record.Slots
import ElementTypes.Proofs.Store.Fields
import ElementTypes.Proofs.Store.Arrange
import ElementTypes.Proofs.Store.Build
import ElementTypes.Proofs.Session.Records
import ElementTypes.Proofs.Record.Replace
import ElementTypes.Proofs.Session.Names
import ElementTypes.Proofs.Text.Grammar
import ElementTypes.Proofs.Session.Registry
import ElementTypes.Proofs.Session.Trees
import ElementTypes.Proofs.Text.RawText
import ElementTypes.Proofs.Store.Raw
import ElementTypes.Proofs.Session.RawTexts
