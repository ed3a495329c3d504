import Jigsaw.Main
import Jigsaw.Proofs.Name.Fresh
import Jigsaw.Proofs.Name.Run
import Jigsaw.Proofs.Source.Literal
import Jigsaw.Proofs.Source.Token
import Jigsaw.Proofs.Source.Tree
import Jigsaw.Proofs.Source.Grammar
import Jigsaw.Proofs.Source.Reading
import Jigsaw.Proofs.Render.BlockTree
import Jigsaw.Proofs.Render.Spelling
import Jigsaw.Proofs.Render.Discipline
import Jigsaw.Proofs.Render.Realize
import Jigsaw.Proofs.Render.ValueRules
import Jigsaw.Proofs.Render.BlockPlan
import Jigsaw.Proofs.Render.StatementRules
import Jigsaw.Proofs.Render.Reachable
import Jigsaw.Proofs.Source.Unambiguous
import Jigsaw.Proofs.Number.Literal
import Jigsaw.Proofs.Render.ExpressionCode
import Jigsaw.Proofs.Source.Line
import Jigsaw.Proofs.Render.Capture
import Jigsaw.Proofs.Source.Outline
import Jigsaw.Proofs.Render.Layout
import Jigsaw.Proofs.Render.Call
import Jigsaw.Proofs.Render.Tour
import Jigsaw.Proofs.Render.Traces
import Jigsaw.Proofs.Render.TourRules
import Jigsaw.Proofs.Render.Success
import Jigsaw.Proofs.Render.Sections
import Jigsaw.Proofs.Render.Routines
import Jigsaw.Proofs.Json.Reader
import Jigsaw.Proofs.Block.Record
import Jigsaw.Proofs.Block.Dump
import Jigsaw.Proofs.Command.Disk
import Jigsaw.Proofs.Command.Run
import Jigsaw.Proofs.Xml.Reader
import Jigsaw.Proofs.Block.Encode
import Jigsaw.Proofs.Render.TextLiteral
import Jigsaw.Proofs.Block.Acceptance
import Jigsaw.Proofs.Source.Evaluation
import Jigsaw.Proofs.Render.Unfolding
import Jigsaw.Proofs.Render.Procedures
import Jigsaw.Proofs.Block.Ignored
import Jigsaw.Proofs.Source.Slicing
import Jigsaw.Proofs.Render.IndexCode
import Jigsaw.Proofs.Render.TextSlices
import Jigsaw.Proofs.Name.Frames
import Jigsaw.Proofs.Render.DeclarationRound
import Jigsaw.Proofs.Render.Anonymous
import Jigsaw.Proofs.Number.ReadBack
import Jigsaw.Proofs.Render.DeadContent
import Jigsaw.Proofs.Block.Numbered
import Jigsaw.Proofs.Command.Arguments
import Jigsaw.Proofs.Name.Compatibility
import Jigsaw.Proofs.Name.Search
