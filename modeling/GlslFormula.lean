import GlslFormula.CommandLine.Run
import GlslFormula.Compile.Event
import GlslFormula.Diagnostic.Catalogue
import GlslFormula.Host.Memory
import GlslFormula.Main
import GlslFormula.Session.Completion
import GlslFormula.Session.Conversation
import GlslFormula.Settings.Files
import GlslFormula.Tree.Walk
import GlslFormula.Proofs.Control
import GlslFormula.Proofs.Context
import GlslFormula.Proofs.Placement
import GlslFormula.Proofs.Assembly
import GlslFormula.Proofs.Arrangement
import GlslFormula.Proofs.Reference
import GlslFormula.Proofs.ScanStep
import GlslFormula.Proofs.Lockstep
import GlslFormula.Proofs.Coverage
import GlslFormula.Proofs.Reading
import GlslFormula.Proofs.Tokenization
import GlslFormula.Proofs.Rounds
import GlslFormula.Proofs.Writing
import GlslFormula.Proofs.Offence
import GlslFormula.Proofs.Report
import GlslFormula.Proofs.Refusal
import GlslFormula.Proofs.Division
import GlslFormula.Proofs.Composition
import GlslFormula.Proofs.Recovery
import GlslFormula.Proofs.Origin
import GlslFormula.Proofs.Parentheses
import GlslFormula.Proofs.Ties
import GlslFormula.Proofs.Ancestry
import GlslFormula.Proofs.Forest
import GlslFormula.Proofs.Branches
import GlslFormula.Proofs.Ascent
import GlslFormula.Proofs.Walks
import GlslFormula.Proofs.Position
import GlslFormula.Proofs.Progress
import GlslFormula.Proofs.Safety
import GlslFormula.Proofs.Traversal
import GlslFormula.Proofs.Arity
import GlslFormula.Proofs.Shape
import GlslFormula.Proofs.Output
import GlslFormula.Proofs.Lossless
import GlslFormula.Proofs.Tiling
import GlslFormula.Proofs.Respelling
import GlslFormula.Proofs.Blanks
import GlslFormula.Proofs.ScanRefusal
import GlslFormula.Proofs.Recursion
import GlslFormula.Proofs.Insertion
import GlslFormula.Proofs.InPlace
import GlslFormula.Proofs.Resumption
import GlslFormula.Proofs.ScanResumption
import GlslFormula.Proofs.Listing
import GlslFormula.Proofs.Outline
import GlslFormula.Proofs.Sketch
import GlslFormula.Proofs.Legibility
import GlslFormula.Proofs.Caret
import GlslFormula.Proofs.Cursor
import GlslFormula.Proofs.Candidates
import GlslFormula.Proofs.UnfinishedName
import GlslFormula.Proofs.Quotation
import GlslFormula.Proofs.Numeral
import GlslFormula.Proofs.Document
import GlslFormula.Proofs.Reloading
import GlslFormula.Proofs.Saving
import GlslFormula.Proofs.Spine
