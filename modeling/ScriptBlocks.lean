import ScriptBlocks.Dialect
import ScriptBlocks.Document.Options
import ScriptBlocks.Document.Workspace
import ScriptBlocks.Palette.Toolbox
import ScriptBlocks.Pattern.Reader
import ScriptBlocks.Proofs.Dialect.Action
import ScriptBlocks.Proofs.Dialect.Picture
import ScriptBlocks.Proofs.Dialect.Precedence
import ScriptBlocks.Proofs.Document.Options
import ScriptBlocks.Proofs.Document.Workspace
import ScriptBlocks.Proofs.Expression.Arithmetic
import ScriptBlocks.Proofs.Json.Acceptance
import ScriptBlocks.Proofs.Number.Integer
import ScriptBlocks.Proofs.Palette
import ScriptBlocks.Proofs.Palette.Entry
import ScriptBlocks.Proofs.Reading.Account
import ScriptBlocks.Proofs.Reading.Chains
import ScriptBlocks.Proofs.Reading.Condition
import ScriptBlocks.Proofs.Reading.Limit
import ScriptBlocks.Proofs.Reading.Parentheses
import ScriptBlocks.Proofs.Reading.Registration
import ScriptBlocks.Proofs.Reading.Strand
import ScriptBlocks.Proofs.RoundTrip.Action
import ScriptBlocks.Proofs.RoundTrip.Arithmetic
import ScriptBlocks.Proofs.RoundTrip.Assignment
import ScriptBlocks.Proofs.RoundTrip.Conditional
import ScriptBlocks.Proofs.RoundTrip.Expression
import ScriptBlocks.Proofs.RoundTrip.Flat
import ScriptBlocks.Proofs.RoundTrip.Integer
import ScriptBlocks.Proofs.RoundTrip.Matrix
import ScriptBlocks.Proofs.RoundTrip.Name
import ScriptBlocks.Proofs.RoundTrip.Text
import ScriptBlocks.Proofs.Text.Body
import ScriptBlocks.Proofs.Text.Interleave
import ScriptBlocks.Proofs.Toolbox.Reading
import ScriptBlocks.Proofs.Workspace.Effects
import ScriptBlocks.Proofs.Workspace.Enclosure
import ScriptBlocks.Proofs.Workspace.Forest
import ScriptBlocks.Proofs.Workspace.InPlace
import ScriptBlocks.Proofs.Workspace.Reattach
import ScriptBlocks.Proofs.Writing.Arms
import ScriptBlocks.Proofs.Writing.Gating
import ScriptBlocks.Proofs.Writing.Globals
import ScriptBlocks.Proofs.Writing.Layout
import ScriptBlocks.Proofs.Writing.Missing
import ScriptBlocks.Proofs.Writing.Sections
import ScriptBlocks.Writing
