import MethodSkeleton.Files.Tree
import MethodSkeleton.Main
import MethodSkeleton.Proofs.Builtin.LaidOut
import MethodSkeleton.Proofs.Builtin.Names
import MethodSkeleton.Proofs.Builtin.RoundTrip
import MethodSkeleton.Proofs.Builtin.Written
import MethodSkeleton.Proofs.CommandLine.Stages
import MethodSkeleton.Proofs.Config.AllOrNothing
import MethodSkeleton.Proofs.Layout.Agreement
import MethodSkeleton.Proofs.Layout.Chunks
import MethodSkeleton.Proofs.Layout.Depth
import MethodSkeleton.Proofs.Layout.Front
import MethodSkeleton.Proofs.Layout.Lines
import MethodSkeleton.Proofs.Layout.Numerals
import MethodSkeleton.Proofs.Layout.Verbatim
import MethodSkeleton.Proofs.Signature.Continuation
import MethodSkeleton.Proofs.Signature.Drawing
import MethodSkeleton.Proofs.Signature.EndOfInput
import MethodSkeleton.Proofs.Signature.Insertion
import MethodSkeleton.Proofs.Signature.LineByLine
import MethodSkeleton.Proofs.Signature.Relaid
import MethodSkeleton.Proofs.Signature.TypeTexts
import MethodSkeleton.Proofs.Source.LongestMatch
