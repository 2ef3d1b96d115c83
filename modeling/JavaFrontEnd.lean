import JavaFrontEnd.Proofs.Carets
import JavaFrontEnd.Main
import JavaFrontEnd.Proofs.Completion
import JavaFrontEnd.Proofs.WrittenTypes
import JavaFrontEnd.Proofs.Parsing.Reports
import JavaFrontEnd.Proofs.Scoping.Walk
import JavaFrontEnd.Proofs.Parsing.Inversion
import JavaFrontEnd.Proofs.Coverage
import JavaFrontEnd.Proofs.CaseNames
import JavaFrontEnd.Proofs.Dominance
import JavaFrontEnd.Proofs.ConstantFields
import JavaFrontEnd.Proofs.ConstantForms
import JavaFrontEnd.Proofs.InheritedMembers
import JavaFrontEnd.Proofs.MatchedPatterns
import JavaFrontEnd.Proofs.SealedTypes
import JavaFrontEnd.Proofs.NumberedClasses
import JavaFrontEnd.Proofs.PlannedConstructors
import JavaFrontEnd.Proofs.EnumModifiers
import JavaFrontEnd.Proofs.Views
import JavaFrontEnd.Proofs.Descriptors
import JavaFrontEnd.Proofs.LiteralTexts
