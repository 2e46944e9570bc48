import NativeHeader.Main
import NativeHeader.Session
import NativeHeader.Proofs.Checks
import NativeHeader.Proofs.ClassNames
import NativeHeader.Proofs.Classification
import NativeHeader.Proofs.Delivery
import NativeHeader.Proofs.Details
import NativeHeader.Proofs.Directories
import NativeHeader.Proofs.DirectoryPattern
import NativeHeader.Proofs.Exclusion
import NativeHeader.Proofs.Failures
import NativeHeader.Proofs.Flattening
import NativeHeader.Proofs.FormatOption
import NativeHeader.Proofs.Formatting
import NativeHeader.Proofs.Generation
import NativeHeader.Proofs.History
import NativeHeader.Proofs.Inlining
import NativeHeader.Proofs.LoadOrder
import NativeHeader.Proofs.Logs
import NativeHeader.Proofs.Merging
import NativeHeader.Proofs.NamedFields
import NativeHeader.Proofs.NamedFiles
import NativeHeader.Proofs.Numbers
import NativeHeader.Proofs.Reading
import NativeHeader.Proofs.ReadingFirst
import NativeHeader.Proofs.Recursion
import NativeHeader.Proofs.Rendering
import NativeHeader.Proofs.Results
import NativeHeader.Proofs.Settings
import NativeHeader.Proofs.Writing
