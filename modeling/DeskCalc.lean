import DeskCalc.Proofs.Token.Nesting
import DeskCalc.Expr.Spelling
import DeskCalc.Calculator.History
import DeskCalc.Main
import DeskCalc.Proofs.Postfix.Pieces
import DeskCalc.Proofs.Postfix.Run
import DeskCalc.Proofs.Postfix.Waiting
import DeskCalc.Proofs.Calculator.Lines
import DeskCalc.Proofs.Calculator.Substitution
import DeskCalc.Proofs.Expr.Grammar
import DeskCalc.Proofs.Expr.Sentence
import DeskCalc.Proofs.Token.Counting
import DeskCalc.Proofs.Calculator.Acceptance
import DeskCalc.Proofs.Calculator.UnsetNames
import DeskCalc.Proofs.Expr.Lines
import DeskCalc.Proofs.Expr.Merging
import DeskCalc.Proofs.Postfix.Ordering
import DeskCalc.Proofs.Calculator.Expressions
import DeskCalc.Proofs.Session.Conversation
import DeskCalc.Proofs.Session.Erasure
import DeskCalc.Proofs.Calculator.Assignments
import DeskCalc.Proofs.Calculator.History
import DeskCalc.Proofs.Session.Journal
import DeskCalc.Proofs.Expr.Reading
import DeskCalc.Proofs.Postfix.Listings
import DeskCalc.Proofs.Calculator.Sentences
import DeskCalc.Proofs.Token.Shape
import DeskCalc.Proofs.Session.Bare
import DeskCalc.Proofs.Session.Outcomes
import DeskCalc.Proofs.Signs.Settling
import DeskCalc.Proofs.Piece.Stretch
import DeskCalc.Proofs.Token.Layout
import DeskCalc.Proofs.Session.Spacing
import DeskCalc.Proofs.Calculator.Conversion
import DeskCalc.Proofs.Piece.Replacement
import DeskCalc.Proofs.Token.Replacement
import DeskCalc.Proofs.Calculator.Replacement
import DeskCalc.Proofs.Calculator.Transparency
import DeskCalc.Proofs.Calculator.Renaming
import DeskCalc.Proofs.Assignment.Grammar
import DeskCalc.Proofs.Session.ReadBack
import DeskCalc.Proofs.Settings.LevelNames
