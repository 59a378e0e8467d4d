import BenchConfig.Ini.Reader
import BenchConfig.Session
import BenchConfig.Main
import BenchConfig.Proofs.Path.Anchor
import BenchConfig.Proofs.Path.Buffer
import BenchConfig.Proofs.Publish.Overwrite
import BenchConfig.Proofs.Bench.Layout
import BenchConfig.Proofs.Bench.Equality
import BenchConfig.Proofs.Bench.Lines
import BenchConfig.Proofs.Frame
import BenchConfig.Proofs.Run
import BenchConfig.Proofs.Frame.Limit
import BenchConfig.Proofs.Publish.Commute
import BenchConfig.Proofs.FileSystem.Handle
import BenchConfig.Proofs.Publish.Failure
import BenchConfig.Proofs.Run.Repeated
import BenchConfig.Proofs.Path.Shape
import BenchConfig.Proofs.Path.Dependence
import BenchConfig.Proofs.Bench.Reading
import BenchConfig.Proofs.Path.Congruence
import BenchConfig.Proofs.Path.Climb
import BenchConfig.Proofs.Text.Lossy
import BenchConfig.Proofs.Path.Lossy
import BenchConfig.Proofs.Publish.Lossy
import BenchConfig.Proofs.Publish.Report
import BenchConfig.Proofs.Path.Same
import BenchConfig.Proofs.Bench.Spelling
