import BoundSql.Argument.Json
import BoundSql.Bulk.Run
import BoundSql.Proofs.Walk.Clause
import BoundSql.Proofs.Walk.Replacement
import BoundSql.Settings.Json
import BoundSql.Proofs.Walk.Select
import BoundSql.Proofs.Made
import BoundSql.Proofs.Walk.Insert
import BoundSql.Proofs.Walk.Union
import BoundSql.Proofs.Walk.Update
import BoundSql.Proofs.Walk.Statement
import BoundSql.Proofs.Places
import BoundSql.Proofs.PlainSteps
import BoundSql.Proofs.Deferred
import BoundSql.Proofs.Flight
import BoundSql.Proofs.Flight.Serial
import BoundSql.Proofs.Transaction
import BoundSql.Proofs.Flight.Roll
import BoundSql.Proofs.Flight.History
import BoundSql.Proofs.Concurrent
import BoundSql.Proofs.Schedule
import BoundSql.Proofs.Render
import BoundSql.Proofs.Interpolated
import BoundSql.Proofs.RecordBinding
import BoundSql.Proofs.Cache
import BoundSql.Proofs.Kept
import BoundSql.Proofs.Supplied
import BoundSql.Proofs.Tells
import BoundSql.Proofs.Requests
import BoundSql.Proofs.Alignment
import BoundSql.Proofs.Balance.Statement
import BoundSql.Proofs.Forest
import BoundSql.Proofs.Placeholder.Lexer
import BoundSql.Proofs.LiteralReader
import BoundSql.Proofs.Template
import BoundSql.Proofs.Identifier.RoundTrip
import BoundSql.Proofs.FirstError
import BoundSql.Proofs.InRange
import BoundSql.Proofs.Executed
import BoundSql.Proofs.Together
import BoundSql.Proofs.Predicate
import BoundSql.Proofs.Expansion
import BoundSql.Proofs.Assignment
import BoundSql.Proofs.Clipping
import BoundSql.Proofs.OperatorTable
