import DrawStream.Bench.Perform
import DrawStream.EntryPoint.Scripted
import DrawStream.Files.Tree
import DrawStream.Main
import DrawStream.Proofs.Guarantees
import DrawStream.Proofs.Session
import DrawStream.Proofs.Past
import DrawStream.Proofs.Outcomes
import DrawStream.Proofs.Lookups
import DrawStream.Proofs.Coverage
import DrawStream.Proofs.Resolution
import DrawStream.Proofs.Kinds
import DrawStream.Proofs.Handles
import DrawStream.Proofs.Rolls
import DrawStream.Proofs.Custody
import DrawStream.Proofs.Draws
import DrawStream.Proofs.Refusals
import DrawStream.Proofs.ByteOrder
import DrawStream.Proofs.Validation
import DrawStream.Proofs.Sources
import DrawStream.Proofs.JsonText
import DrawStream.Proofs.Records
import DrawStream.Proofs.Forms
import DrawStream.Proofs.CommandText
import DrawStream.Proofs.Nearness
import DrawStream.Proofs.SingleText
import DrawStream.Proofs.Writing
import DrawStream.Proofs.ArrayElements
import DrawStream.Proofs.Replays
import DrawStream.Proofs.NumbersRead
import DrawStream.Proofs.ValuesRead
import DrawStream.Proofs.CommandRead
import DrawStream.Proofs.Rewriting
import DrawStream.Proofs.Frames
import DrawStream.Proofs.Usages
import DrawStream.Proofs.WholeNumbers
import DrawStream.Proofs.WholeUniforms
import DrawStream.Proofs.Relinking
import DrawStream.Proofs.Units
import DrawStream.Proofs.DrawExits
import DrawStream.Proofs.TextureWrites
import DrawStream.Proofs.ExactNumbers
import DrawStream.Proofs.Alternatives
import DrawStream.Proofs.Locations
import DrawStream.Proofs.Subscripts
import DrawStream.Proofs.Settability
import DrawStream.Proofs.ErrorQueues
import DrawStream.Proofs.GivenLocations
import DrawStream.Proofs.RawUploads
import DrawStream.Proofs.Allocations
import DrawStream.Proofs.RawSizes
import DrawStream.Proofs.Truncation
import DrawStream.Proofs.TextMemory
import DrawStream.Proofs.Loading
