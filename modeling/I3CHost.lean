import I3CHost.Harness
import I3CHost.Main
import I3CHost.Methods
import I3CHost.Session
import I3CHost.Proofs.FieldLaws
import I3CHost.Proofs.DeviceAddressCodec
import I3CHost.Proofs.FieldWrites
import I3CHost.Proofs.ReadOnlyBits
import I3CHost.Proofs.RegisterFiles
import I3CHost.Proofs.EntryIsolation
import I3CHost.Proofs.Parity
import I3CHost.Proofs.Courses
import I3CHost.Proofs.Operations
import I3CHost.Proofs.Discovery
import I3CHost.Proofs.TableCourses
import I3CHost.Proofs.AcceptedTables
import I3CHost.Proofs.Methods
import I3CHost.Proofs.FaultPrefix
import I3CHost.Proofs.SmokeRun
import I3CHost.Proofs.CommandEffects
import I3CHost.Proofs.SharedBytes
import I3CHost.Proofs.MappedPages
import I3CHost.Proofs.Overrides
import I3CHost.Proofs.FileWindows
import I3CHost.Proofs.Refusals
import I3CHost.Proofs.EntryWords
import I3CHost.Proofs.CharacteristicsCodec
import I3CHost.Proofs.EntryParts
import I3CHost.Proofs.TypedEntries
import I3CHost.Proofs.AccessPaths
import I3CHost.Proofs.EntryPairs
import I3CHost.Proofs.RegisterCalls
import I3CHost.Proofs.Acceptance
import I3CHost.Proofs.Numerals
import I3CHost.Proofs.SmokeFiles
import I3CHost.Proofs.Accounting
import I3CHost.Proofs.InterruptHistory
import I3CHost.Proofs.InterruptFlags
import I3CHost.Proofs.ExactOffsets
import I3CHost.Proofs.RegisterNames
