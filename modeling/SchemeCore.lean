import SchemeCore.Datum.Construct
import SchemeCore.Datum.Sequence
import SchemeCore.Session
import SchemeCore.Evaluation.Handler
import SchemeCore.Proofs.Reader.Atmosphere
import SchemeCore.Proofs.Reader.Token
import SchemeCore.Proofs.Reader.Completeness
import SchemeCore.Proofs.Reader.Nesting
import SchemeCore.Proofs.Reader.Soundness
import SchemeCore.Proofs.Reader.Written
import SchemeCore.Proofs.Evaluation.Access
import SchemeCore.Proofs.Evaluation.Run
import SchemeCore.Proofs.Evaluation.Coupling
import SchemeCore.Proofs.Environment
import SchemeCore.Proofs.Evaluation.Scope
import SchemeCore.Proofs.Evaluation.DepthLimit
import SchemeCore.Proofs.Reader.Extent
import SchemeCore.Proofs.Place
import SchemeCore.Proofs.Reader.Translation
import SchemeCore.Proofs.Reader.Joined
import SchemeCore.Proofs.Evaluation.Write
import SchemeCore.Proofs.Forest
import SchemeCore.Proofs.Evaluation.Effects
import SchemeCore.Proofs.Evaluation.Batch
import SchemeCore.Proofs.Evaluation.Holes
import SchemeCore.Proofs.Evaluation.Literal
import SchemeCore.Proofs.Evaluation.Splices
import SchemeCore.Proofs.Evaluation.RaisedLimit
import SchemeCore.Proofs.Scopes
import SchemeCore.Proofs.Evaluation.Writing
import SchemeCore.Proofs.Session
import SchemeCore.Proofs.Evaluation.Departure
import SchemeCore.Proofs.Evaluation.Rendering
import SchemeCore.Proofs.Evaluation.Totality
import SchemeCore.Proofs.Reader.Limit
import SchemeCore.Proofs.Reader.Lookahead
import SchemeCore.Proofs.Reader.Blame
import SchemeCore.Proofs.Reader.Unclosed
import SchemeCore.Proofs.Evaluation.Unbound
import SchemeCore.Proofs.Evaluation.Block
import SchemeCore.Proofs.Reader.StringLiteral
import SchemeCore.Proofs.Text.Numeral
import SchemeCore.Proofs.Text.Quoted
import SchemeCore.Proofs.Display
import SchemeCore.Proofs.Reader.Numeral
import SchemeCore.Proofs.Reader.FirstDatum
import SchemeCore.Proofs.Mapping
import SchemeCore.Proofs.Settings
import SchemeCore.Proofs.Evaluation.Logging
import SchemeCore.Proofs.Reader.Skipping
